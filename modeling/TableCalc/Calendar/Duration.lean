import TableCalc.Calendar.Timestamp

/-!
Durations as signed hours and minutes. Hours are not wrapped at 24 and parts of a minute are not
written.
-/

namespace TableCalc.Calendar

/-- The milliseconds of a duration `H:MM` with an optional sign. -/
def readDuration (s : String) : Except Fault Int := do
  let text := Text.trim s.toList
  let (negative, unsigned) := Text.splitSign text
  match Text.splitFirst? (· == ':') unsigned with
  | none => .error (.unreadable (.colonMissing (.ofList text)))
  | some (hourPart, minutePart) =>
      if (String.ofList minutePart).utf8ByteSize ≠ 2 then
        .error (.unreadable (.minuteWidth (.ofList text)))
      else
        let hours ← readField .hours (some hourPart)
        let minutes ← readField .minutes (some minutePart)
        if 59 < minutes then .error (.minute minutes)
        else
          let millis := hours * millisPerHour + minutes * millisPerMinute
          .ok (if negative then -millis else millis)

/-- A duration as `HH:MM`, a minus in front if it is at least one minute below zero. -/
def durationChars (millis : Int) : List Char :=
  let minutes := millis.tdiv millisPerMinute
  (if minutes < 0 then ['-'] else []) ++ Text.paddedDigits 2 (minutes.natAbs / 60) ++
    ':' :: Text.paddedDigits 2 (minutes.natAbs % 60)

/-- `durationChars` as a string. -/
def writeDuration (millis : Int) : String := .ofList (durationChars millis)

end TableCalc.Calendar
