/-!
Dates of the Gregorian calendar, extended to all years, and the numbering of days from
1970-01-01. Years are counted from March, so that a leap day is the last day of its year, and in
eras of 400 years, which all have the same length. Years and day numbers have no bounds here. For
years up to 10 ^ 9 all steps stay within words of 64 bits, for years far beyond they do not.
-/

namespace TableCalc.Calendar

structure Date where
  year : Int
  month : Nat
  day : Nat
deriving DecidableEq, Repr

def isLeapYear (year : Int) : Bool := (year % 4 == 0 && year % 100 != 0) || year % 400 == 0

/-- The number of days of a month; zero if there is no such month. -/
def daysInMonth (year : Int) : Nat → Nat
  | 2 => if isLeapYear year then 29 else 28
  | 4 | 6 | 9 | 11 => 30
  | 1 | 3 | 5 | 7 | 8 | 10 | 12 => 31
  | _ => 0

/-- Whether a date is a day of the calendar. -/
def Date.IsValid (date : Date) : Prop :=
  1 ≤ date.month ∧ date.month ≤ 12 ∧ 1 ≤ date.day ∧ date.day ≤ daysInMonth date.year date.month

/-- The days of an era of 400 years. -/
def daysPerEra : Int := 146097

/-- The days from the first of March of the year 0 to 1970-01-01. -/
def epochDay : Int := 719468

/-- The year that began on the first of March at or before a date. -/
def Date.marchYear (date : Date) : Int := if date.month ≤ 2 then date.year - 1 else date.year

def Date.marchMonth (date : Date) : Int :=
  if 2 < date.month then (date.month : Int) - 3 else (date.month : Int) + 9

/-- The days from the first of March to the first day of a month that is counted from March. -/
def daysBeforeMonth (marchMonth : Int) : Int := (153 * marchMonth + 2) / 5

/-- The days from the start of an era to the first of March of one of its years. -/
def daysBeforeYear (yearOfEra : Int) : Int := yearOfEra * 365 + yearOfEra / 4 - yearOfEra / 100

/-- The number of a day, 0 for 1970-01-01. -/
def Date.dayNumber (date : Date) : Int :=
  let era := date.marchYear / 400
  let yearOfEra := date.marchYear % 400
  let dayOfYear := daysBeforeMonth date.marchMonth + date.day - 1
  era * daysPerEra + (daysBeforeYear yearOfEra + dayOfYear) - epochDay

/-- The year of an era that holds the given day of the era. -/
def yearOfEraOfDay (dayOfEra : Int) : Int :=
  (dayOfEra - dayOfEra / 1460 + dayOfEra / 36524 - dayOfEra / 146096) / 365

def Date.ofDayNumber (number : Int) : Date :=
  let shifted := number + epochDay
  let era := shifted / daysPerEra
  let dayOfEra := shifted % daysPerEra
  let yearOfEra := yearOfEraOfDay dayOfEra
  let dayOfYear := dayOfEra - daysBeforeYear yearOfEra
  let marchMonth := (5 * dayOfYear + 2) / 153
  let day := dayOfYear - daysBeforeMonth marchMonth + 1
  let month := if marchMonth < 10 then marchMonth + 3 else marchMonth - 9
  let marchYear := yearOfEra + era * 400
  { year := if month ≤ 2 then marchYear + 1 else marchYear
    month := month.toNat
    day := day.toNat }

end TableCalc.Calendar
