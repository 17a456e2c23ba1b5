import TableCalc.Decimal.Printer
import TableCalc.Formula
import TableCalc.Grid

/-!
Writing computed numbers as a formula's display asks for.
-/

namespace TableCalc.Display

/-- A text as the display writes the number that it counts as. Instants round down to a millisecond
and durations toward zero; a number of milliseconds that does not fit 64 bits is written as it
is. -/
def write (display : Display) (text : String) : String :=
  let x := Cell.number text
  match display with
  | .fixed places => x.fixed places
  | .dateTime =>
      match x.floor.toInt64? with
      | some millis => toString (Calendar.Timestamp.mk millis)
      | none => x.canonical
  | .hoursMinutes =>
      match x.trunc.toInt64? with
      | some millis => Calendar.writeDuration millis
      | none => x.canonical

/-- A value as the display writes it. A single cell is always written, blank or not; in ranges blank
cells stay as they are. -/
def apply (display : Display) (value : Grid) : Grid :=
  if value.isCell then .single (display.write (value.text 0 0))
  else
    ⟨value.cells.map fun row =>
      row.map fun text => if Text.isBlankText text then text else display.write text⟩

end TableCalc.Display
