import TableCalc.Text.Basic
import TableCalc.Text.Digit

/-!
The written parts of date-times and durations, which are ASCII digits between separators, and what
can go wrong with them.
-/

namespace TableCalc.Calendar

/-- The parts of written dates, times and durations. -/
inductive Field where
  | year | month | day | hour | minute | second | hours | minutes
deriving DecidableEq, Repr

def Field.name : Field → String
  | .year => "year"
  | .month => "month"
  | .day => "day"
  | .hour => "hour"
  | .minute => "minute"
  | .second => "second"
  | .hours => "hours"
  | .minutes => "minutes"

/-- Why a text is no date-time or duration at all. -/
inductive ReadFault where
  | timeMissing (text : String)
  | colonMissing (text : String)
  | minuteWidth (text : String)
  | field (field : Field)
deriving DecidableEq, Repr

def ReadFault.message : ReadFault → String
  | .timeMissing text => "Expected date and time: " ++ text
  | .colonMissing text => "Expected H:MM: " ++ text
  | .minuteWidth text => "Expected two minute digits: " ++ text
  | .field f => "Invalid " ++ f.name

inductive Fault where
  | month (month : Nat)
  | day (day month : Nat) (year : Int)
  | hour (hour : Nat)
  | minute (minute : Nat)
  | second (second : Nat)
  | unreadable (fault : ReadFault)
  | overflow
deriving DecidableEq, Repr

def Fault.message : Fault → String
  | .month m => s!"Invalid month: {m} (must be 1-12)"
  | .day d m y => s!"Invalid day: {d} for {m}/{y}"
  | .hour h => s!"Invalid hour: {h} (must be 0-23)"
  | .minute m => s!"Invalid minute: {m} (must be 0-59)"
  | .second s => s!"Invalid second: {s} (must be 0-59)"
  | .unreadable fault => "Parse error: " ++ fault.message
  | .overflow => "DateTime overflow"

/-- The pieces of a text between separators. After `limit` separators the rest is one piece. -/
def splitAtMost (separator : Char) : (limit : Nat) → List Char → List (List Char)
  | 0, cs => [cs]
  | limit + 1, cs =>
      match Text.splitFirst? (· == separator) cs with
      | none => [cs]
      | some (before, after) => before :: splitAtMost separator limit after

/-- The value of a written part: a non-empty text of digits that fit 32 bits. -/
def readField (field : Field) (part : Option (List Char)) : Except Fault Nat :=
  match (part.bind Text.natural?).filter (· ≤ Text.maxHalfWord) with
  | some n => .ok n
  | none => .error (.unreadable (.field field))

end TableCalc.Calendar
