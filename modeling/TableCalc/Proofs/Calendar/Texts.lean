import TableCalc.Proofs.Calendar.Instants
import TableCalc.Proofs.Text.Blank
import TableCalc.Proofs.Text.Digits

/-!
The texts of date-times, and what is read from them. The marks between the fields are no digits, so
the fields are found again one by one; whether there is an instant with these fields is a question of
the calendar. Where seconds are not written they are read as none.
-/

namespace TableCalc.Calendar

open Text (paddedDigits isDigit_of_mem_paddedDigits splitFirst?_append splitFirst?_eq_none)

def DateTime.dateChars (t : DateTime) : List Char :=
  yearChars t.year ++ '-' :: (paddedDigits 2 t.month ++ '-' :: paddedDigits 2 t.day)

def DateTime.timeChars (withSeconds : Bool) (t : DateTime) : List Char :=
  paddedDigits 2 t.hour ++ ':' :: (paddedDigits 2 t.minute ++
    if withSeconds then ':' :: paddedDigits 2 t.second else [])

/-- The text of a date and time of day with a mark between the two, with seconds if they are asked
for. -/
def DateTime.chars (mark : Char) (withSeconds : Bool) (t : DateTime) : List Char :=
  t.dateChars ++ mark :: t.timeChars withSeconds

theorem DateTime.timeChars_false (t : DateTime) :
    t.timeChars false = paddedDigits 2 t.hour ++ ':' :: paddedDigits 2 t.minute := by
  rw [DateTime.timeChars, if_neg Bool.false_ne_true, List.append_nil]

theorem DateTime.timeChars_true (t : DateTime) :
    t.timeChars true = t.timeChars false ++ ':' :: paddedDigits 2 t.second := by
  rw [t.timeChars_false, DateTime.timeChars, if_pos rfl, List.append_assoc, List.cons_append]

theorem DateTime.mem_timeChars {t : DateTime} {withSeconds : Bool} {c : Char}
    (hc : c ∈ t.timeChars withSeconds) : c.isDigit = true ∨ c = ':' := by
  have hshort {c : Char} (hc : c ∈ t.timeChars false) : c.isDigit = true ∨ c = ':' := by
    rw [t.timeChars_false, List.mem_append, List.mem_cons] at hc
    rcases hc with hhour | rfl | hminute
    · exact .inl (isDigit_of_mem_paddedDigits hhour)
    · exact .inr rfl
    · exact .inl (isDigit_of_mem_paddedDigits hminute)
  cases withSeconds with
  | false => exact hshort hc
  | true =>
    rw [t.timeChars_true, List.mem_append, List.mem_cons] at hc
    rcases hc with htime | rfl | hsecond
    · exact hshort htime
    · exact .inr rfl
    · exact .inl (isDigit_of_mem_paddedDigits hsecond)

theorem Timestamp.toString_eq (s : Timestamp) : toString s = .ofList s.chars := rfl

/-- An instant is written with a space, and without its seconds. -/
theorem Timestamp.chars_eq (s : Timestamp) : s.chars = s.toDateTime.chars ' ' false := by
  simp [Timestamp.chars, DateTime.chars, DateTime.dateChars, DateTime.timeChars]

theorem readField_digits (field : Field) {width n : Nat} (hn : n ≤ Text.maxHalfWord) :
    readField field (some (paddedDigits width n)) = .ok n := by
  have hfits : (some n).filter (· ≤ Text.maxHalfWord) = some n :=
    Option.filter_some_pos (decide_eq_true hn)
  rw [readField, Option.bind_some, Text.natural?_paddedDigits, hfits]

theorem readField_large (field : Field) {width n : Nat} (hn : Text.maxHalfWord < n) :
    readField field (some (paddedDigits width n)) = .error (.unreadable (.field field)) := by
  have hlarge : (some n).filter (· ≤ Text.maxHalfWord) = none :=
    Option.filter_some_neg (by simpa using hn)
  rw [readField, Option.bind_some, Text.natural?_paddedDigits, hlarge]

theorem readField_le {field : Field} {part : Option (List Char)} {n : Nat}
    (h : readField field part = .ok n) : n ≤ Text.maxHalfWord := by
  unfold readField at h
  split at h
  · next m hm =>
    cases h
    exact of_decide_eq_true (Option.mem_filter_iff.mp hm).2
  · cases h

theorem ne_of_digit {width n : Nat} {mark c : Char} (hmark : mark.isDigit = false)
    (hc : c ∈ paddedDigits width n) : (c == mark) = false := by
  have hdigit := isDigit_of_mem_paddedDigits hc
  rw [beq_eq_false_iff_ne]
  rintro rfl
  rw [hdigit] at hmark
  cases hmark

section Split

variable {mark : Char} (hmark : mark.isDigit = false) (width a b c : Nat)

include hmark

theorem splitAtMost_two :
    splitAtMost mark 2 (paddedDigits width a ++ mark :: paddedDigits 2 b) =
      [paddedDigits width a, paddedDigits 2 b] := by
  rw [splitAtMost, splitFirst?_append (fun _ hc => ne_of_digit hmark hc) (beq_self_eq_true mark)]
  dsimp only
  rw [splitAtMost, splitFirst?_eq_none fun _ hc => ne_of_digit hmark hc]

theorem splitAtMost_three :
    splitAtMost mark 2
        (paddedDigits width a ++ mark :: (paddedDigits 2 b ++ mark :: paddedDigits 2 c)) =
      [paddedDigits width a, paddedDigits 2 b, paddedDigits 2 c] := by
  rw [splitAtMost, splitFirst?_append (fun _ hc => ne_of_digit hmark hc) (beq_self_eq_true mark)]
  dsimp only
  rw [splitAtMost, splitFirst?_append (fun _ hc => ne_of_digit hmark hc) (beq_self_eq_true mark)]
  rfl

end Split

theorem DateTime.splitAtMost_timeChars_false (t : DateTime) :
    splitAtMost ':' 2 (t.timeChars false) = [paddedDigits 2 t.hour, paddedDigits 2 t.minute] := by
  rw [t.timeChars_false]
  exact splitAtMost_two (by decide) _ _ _

theorem DateTime.splitAtMost_timeChars_true (t : DateTime) :
    splitAtMost ':' 2 (t.timeChars true) =
      [paddedDigits 2 t.hour, paddedDigits 2 t.minute, paddedDigits 2 t.second] := by
  rw [t.timeChars_true, t.timeChars_false, List.append_assoc, List.cons_append]
  exact splitAtMost_three (by decide) _ _ _ _

/-- What the fields of a date-time may be where each digit is bounded on its own. -/
structure DateTime.InPattern (t : DateTime) : Prop where
  year : 1000 ≤ t.year ∧ t.year ≤ 9999
  month : t.month < 20
  day : t.day < 40
  hour : t.hour < 30
  minute : t.minute < 60
  second : t.second < 60

def IsMark (c : Char) : Prop := c = 'T' ∨ c = ' '

section Read

variable {t : DateTime} (h : t.InPattern)

include h

theorem DateTime.InPattern.yearChars_eq : yearChars t.year = paddedDigits 4 t.year.natAbs := by
  have hyear := h.year
  rw [yearChars, if_neg (by omega)]

theorem DateTime.InPattern.splitAtMost_dateChars :
    splitAtMost '-' 2 t.dateChars =
      [paddedDigits 4 t.year.natAbs, paddedDigits 2 t.month, paddedDigits 2 t.day] := by
  rw [DateTime.dateChars, h.yearChars_eq]
  exact splitAtMost_three (by decide) _ _ _ _

theorem DateTime.InPattern.mem_dateChars {c : Char} (hc : c ∈ t.dateChars) :
    c.isDigit = true ∨ c = '-' := by
  rw [DateTime.dateChars, h.yearChars_eq] at hc
  simp only [List.mem_append, List.mem_cons] at hc
  rcases hc with hyear | rfl | hmonth | rfl | hday
  · exact .inl (isDigit_of_mem_paddedDigits hyear)
  · exact .inr rfl
  · exact .inl (isDigit_of_mem_paddedDigits hmonth)
  · exact .inr rfl
  · exact .inl (isDigit_of_mem_paddedDigits hday)

theorem DateTime.InPattern.no_mark : ∀ c ∈ t.dateChars, (c == 'T' || c == ' ') = false := by
  intro c hc
  rw [Bool.or_eq_false_iff, beq_eq_false_iff_ne, beq_eq_false_iff_ne]
  constructor
  · rintro rfl
    exact absurd (h.mem_dateChars hc) (by decide)
  · rintro rfl
    exact absurd (h.mem_dateChars hc) (by decide)

/-- Blanks stand in the middle only. -/
theorem DateTime.InPattern.isTrimmed_chars (mark : Char) (withSeconds : Bool) :
    Text.IsTrimmed (t.chars mark withSeconds) := by
  have hdate : Text.IsTrimmed t.dateChars := by
    refine Text.isTrimmed_of_visible fun c hc => ?_
    rcases h.mem_dateChars hc with hdigit | rfl
    · exact Text.isBlank_of_isDigit hdigit
    · rfl
  have htime : Text.IsTrimmed (t.timeChars withSeconds) := by
    refine Text.isTrimmed_of_visible fun c hc => ?_
    rcases DateTime.mem_timeChars hc with hdigit | rfl
    · exact Text.isBlank_of_isDigit hdigit
    · rfl
  exact hdate.around htime (List.append_ne_nil_of_right_ne_nil _ (List.cons_ne_nil _ _))
    (List.append_ne_nil_of_right_ne_nil _ (List.cons_ne_nil _ _)) [mark]

/-- Fields that are written in the pattern are read as what they are. Seconds that are not written
are none. -/
theorem Timestamp.read_eq_ofDateTime {s : String} {mark : Char} {withSeconds : Bool}
    (hmark : IsMark mark) (hsecond : withSeconds = false → t.second = 0)
    (htext : Text.trim s.toList = t.chars mark withSeconds) :
    Timestamp.read s = Timestamp.ofDateTime t := by
  have hsplit : Text.splitFirst? (fun c => c == 'T' || c == ' ') (Text.trim s.toList) =
      some (t.dateChars, t.timeChars withSeconds) := by
    rw [htext]
    refine splitFirst?_append h.no_mark ?_
    rcases hmark with rfl | rfl <;> rfl
  have hdate := h.splitAtMost_dateChars
  obtain ⟨hyear, hmonth, hday, hhour, hminute, hsecond'⟩ := h
  have hmax : Text.maxHalfWord = 4294967295 := rfl
  have hcast : ((t.year.natAbs : Nat) : Int) = t.year := by omega
  have hreadYear : readField .year (some (paddedDigits 4 t.year.natAbs)) = .ok t.year.natAbs :=
    readField_digits _ (by omega)
  have hread (field : Field) {n : Nat} (hn : n < 60) :
      readField field (some (paddedDigits 2 n)) = .ok n :=
    readField_digits _ (by omega)
  have hreadMonth := hread .month (Nat.lt_trans hmonth (by decide))
  have hreadDay := hread .day (Nat.lt_trans hday (by decide))
  have hreadHour := hread .hour (Nat.lt_trans hhour (by decide))
  rw [Timestamp.read, hsplit]
  dsimp only
  rw [hdate]
  cases withSeconds with
  | false =>
    have hfields : (⟨⟨t.year.natAbs, t.month, t.day⟩, t.hour, t.minute, 0⟩ : DateTime) = t := by
      rw [hcast, ← hsecond rfl]
    rw [t.splitAtMost_timeChars_false]
    simp only [List.getElem?_cons_zero, List.getElem?_cons_succ, List.getElem?_nil, hreadYear,
      hreadMonth, hreadDay, hreadHour, hread _ hminute]
    exact congrArg Timestamp.ofDateTime hfields
  | true =>
    have hfields :
        (⟨⟨t.year.natAbs, t.month, t.day⟩, t.hour, t.minute, t.second⟩ : DateTime) = t := by
      rw [hcast]
    rw [t.splitAtMost_timeChars_true]
    simp only [List.getElem?_cons_zero, List.getElem?_cons_succ, hreadYear, hreadMonth, hreadDay,
      hreadHour, hread _ hminute, hread _ hsecond']
    exact congrArg Timestamp.ofDateTime hfields

end Read

/-- The years that are written in four digits, the first of which is not zero. -/
def DateTime.InFourDigitYears (t : DateTime) : Prop := 1000 ≤ t.year ∧ t.year ≤ 9999

section Fields

variable {t : DateTime} (h : t.IsValid) (hyear : t.InFourDigitYears)

include h hyear

theorem DateTime.IsValid.inPattern : t.InPattern := by
  obtain ⟨⟨-, hmonth, -, hday⟩, hhour, hminute, hsecond⟩ := h
  have hlength := daysInMonth_le t.year t.month
  exact ⟨hyear, by omega, by omega, by omega, by omega, by omega⟩

/-- In these years no milliseconds come near the ends of a word. -/
theorem DateTime.IsValid.ofDateTime_eq_ok : Timestamp.ofDateTime t = .ok ⟨t.millis⟩ := by
  have hnumber := t.dayNumber_eq
  have hbefore := daysBeforeMarch_eq t.marchYear
  have hday := h.date.dayOfMarchYear_bounds
  have htime := h.millisOfDay_bounds
  obtain ⟨hlow, hhigh⟩ := hyear
  have hmarch : t.year - 1 ≤ t.marchYear ∧ t.marchYear ≤ t.year := by
    unfold Date.marchYear
    split <;> omega
  have hbounds : -1000000 ≤ t.dayNumber ∧ t.dayNumber ≤ 3000000 := by
    unfold epochDay at hnumber
    omega
  have hstart : Text.isInt64 (t.dayNumber * millisPerDay) = true := by
    rw [Word.isInt64_iff]
    unfold millisPerDay millisPerHour millisPerMinute millisPerSecond
    omega
  have hmillis : Text.isInt64 t.millis = true := by
    rw [Word.isInt64_iff, t.millis_eq]
    omega
  rw [Timestamp.ofDateTime_eq h, hstart, hmillis]
  rfl

end Fields

/-- The fields that a text tells. Seconds that are not written are none. -/
def DateTime.shown (withSeconds : Bool) (t : DateTime) : DateTime :=
  if withSeconds then t else { t with second := 0 }

section Shown

variable (withSeconds : Bool) (t : DateTime)

theorem DateTime.chars_shown (mark : Char) :
    (t.shown withSeconds).chars mark withSeconds = t.chars mark withSeconds := by
  cases withSeconds <;> rfl

theorem DateTime.year_shown : (t.shown withSeconds).year = t.year := by
  cases withSeconds <;> rfl

theorem DateTime.IsValid.shown {t : DateTime} (h : t.IsValid) (withSeconds : Bool) :
    (t.shown withSeconds).IsValid := by
  cases withSeconds with
  | false => exact ⟨h.date, h.hour, h.minute, Nat.zero_le _⟩
  | true => exact h

theorem DateTime.millis_shown_false : (t.shown false).millis = t.millis - 1000 * t.second := by
  have hshown : t.shown false = { t with second := 0 } := rfl
  rw [hshown, DateTime.millis_eq, DateTime.millis_eq, DateTime.millisOfDay_eq,
    DateTime.millisOfDay_eq]
  dsimp only
  omega

/-- What a text tells of an instant is the instant rounded down to its last field. -/
theorem Timestamp.millis_shown (s : Timestamp) :
    (s.toDateTime.shown withSeconds).millis =
      s.millis - s.millis % if withSeconds then 1000 else 60000 := by
  have hmillis := s.millis_toDateTime
  cases withSeconds with
  | false =>
    have hsecond : (s.toDateTime.second : Int) = s.millis % 60000 / 1000 := by
      simp only [Timestamp.toDateTime, millisPerDay, millisPerHour, millisPerMinute,
        millisPerSecond]
      omega
    rw [DateTime.millis_shown_false, if_neg Bool.false_ne_true]
    omega
  | true => exact hmillis

end Shown

end TableCalc.Calendar
