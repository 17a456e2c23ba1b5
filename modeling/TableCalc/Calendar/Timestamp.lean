import TableCalc.Calendar.Date
import TableCalc.Calendar.Field
import TableCalc.Text.Basic

/-!
Instants of universal time as milliseconds from 1970-01-01, their calendar fields, and their
texts, which go down to the minute.
-/

namespace TableCalc.Calendar

def millisPerSecond : Int := 1000

def millisPerMinute : Int := 60 * millisPerSecond

def millisPerHour : Int := 60 * millisPerMinute

def millisPerDay : Int := 24 * millisPerHour

/-- An instant, in milliseconds from the start of 1970-01-01. -/
structure Timestamp where
  millis : Int
deriving DecidableEq, Repr

structure DateTime extends Date where
  hour : Nat
  minute : Nat
  second : Nat
deriving DecidableEq, Repr

def DateTime.millisOfDay (t : DateTime) : Int :=
  t.hour * millisPerHour + t.minute * millisPerMinute + t.second * millisPerSecond

/-- The exact milliseconds that a date and time of day denote. -/
def DateTime.millis (t : DateTime) : Int := t.dayNumber * millisPerDay + t.millisOfDay

/-- The instant of a date and time of day. The fields are checked from the largest to the smallest,
and both the start of the day and the instant have to fit 64 bits. -/
def Timestamp.ofDateTime (t : DateTime) : Except Fault Timestamp :=
  if t.month < 1 ∨ 12 < t.month then .error (.month t.month)
  else if t.day < 1 ∨ daysInMonth t.year t.month < t.day then
    .error (.day t.day t.month t.year)
  else if 23 < t.hour then .error (.hour t.hour)
  else if 59 < t.minute then .error (.minute t.minute)
  else if 59 < t.second then .error (.second t.second)
  else if Text.isInt64 (t.dayNumber * millisPerDay) && Text.isInt64 t.millis then .ok ⟨t.millis⟩
  else .error .overflow

/-- The date and time of day of an instant, milliseconds dropped. -/
def Timestamp.toDateTime (t : Timestamp) : DateTime :=
  let millisOfDay := t.millis % millisPerDay
  { Date.ofDayNumber (t.millis / millisPerDay) with
    hour := (millisOfDay / millisPerHour).toNat
    minute := (millisOfDay % millisPerHour / millisPerMinute).toNat
    second := (millisOfDay % millisPerMinute / millisPerSecond).toNat }

/-- Reads `YYYY-MM-DD HH:MM`, with seconds or without, with a blank or `T` between. -/
def Timestamp.read (s : String) : Except Fault Timestamp := do
  let text := Text.trim s.toList
  match Text.splitFirst? (fun c => c == 'T' || c == ' ') text with
  | none => .error (.unreadable (.timeMissing (.ofList text)))
  | some (date, time) =>
      let dateParts := splitAtMost '-' 2 date
      let year ← readField .year dateParts[0]?
      let month ← readField .month dateParts[1]?
      let day ← readField .day dateParts[2]?
      let timeParts := splitAtMost ':' 2 time
      let hour ← readField .hour timeParts[0]?
      let minute ← readField .minute timeParts[1]?
      let second ←
        match timeParts[2]? with
        | none => pure 0
        | some part => readField .second (some part)
      Timestamp.ofDateTime
        { year := year, month := month, day := day, hour := hour, minute := minute,
          second := second }

/-- A year in at least four characters, the sign included. -/
def yearChars (year : Int) : List Char :=
  if year < 0 then '-' :: Text.paddedDigits 3 year.natAbs else Text.paddedDigits 4 year.natAbs

/-- An instant as `YYYY-MM-DD HH:MM`. -/
def Timestamp.chars (t : Timestamp) : List Char :=
  let f := t.toDateTime
  yearChars f.year ++ '-' :: Text.paddedDigits 2 f.month ++ '-' :: Text.paddedDigits 2 f.day ++
    ' ' :: Text.paddedDigits 2 f.hour ++ ':' :: Text.paddedDigits 2 f.minute

instance : ToString Timestamp := ⟨fun t => .ofList t.chars⟩

end TableCalc.Calendar
