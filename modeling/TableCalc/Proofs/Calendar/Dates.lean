import Mathlib.Tactic.IntervalCases
import TableCalc.Calendar.Date

/-!
Dates and their numbers. The numbers of two days differ by one just if one day follows the other, so
the numbering is one to one, keeps the order and leaves no number out. The eras of 400 years, which
both conversions count in, vanish from the number of a date: a year that begins in March has 365
days and one more where a leap day ends it.
-/

namespace TableCalc.Calendar

instance : DecidablePred Date.IsValid := fun date =>
  inferInstanceAs (Decidable (1 ≤ date.month ∧ date.month ≤ 12 ∧ 1 ≤ date.day ∧
    date.day ≤ daysInMonth date.year date.month))

theorem isLeapYear_iff (year : Int) :
    isLeapYear year = true ↔ year % 4 = 0 ∧ year % 100 ≠ 0 ∨ year % 400 = 0 := by
  simp [isLeapYear]

theorem daysInMonth_february (year : Int) :
    daysInMonth year 2 = if isLeapYear year then 29 else 28 := rfl

theorem daysInMonth_pos (year : Int) {month : Nat} (h : 1 ≤ month ∧ month ≤ 12) :
    1 ≤ daysInMonth year month := by
  obtain ⟨hlow, hhigh⟩ := h
  interval_cases month
  case «2» =>
    rw [daysInMonth_february]
    split <;> decide
  all_goals exact Nat.le_add_left 1 _

theorem daysInMonth_le (year : Int) (month : Nat) : daysInMonth year month ≤ 31 := by
  unfold daysInMonth
  split
  · split <;> decide
  all_goals decide

section March

/-- The days from the first of March of the year 0 to that of another year. -/
def daysBeforeMarch (year : Int) : Int :=
  year / 400 * daysPerEra + daysBeforeYear (year % 400)

theorem daysBeforeMarch_eq (year : Int) :
    daysBeforeMarch year = 365 * year + year / 4 - year / 100 + year / 400 := by
  unfold daysBeforeMarch daysBeforeYear daysPerEra
  omega

/-- From one March to the next: the months that end with January, and February. -/
theorem daysBeforeMarch_succ (year : Int) :
    daysBeforeMarch year = daysBeforeMarch (year - 1) + 337 + daysInMonth year 2 := by
  rw [daysBeforeMarch_eq, daysBeforeMarch_eq, daysInMonth_february]
  split
  · next hleap =>
    rw [isLeapYear_iff] at hleap
    omega
  · next hleap =>
    rw [isLeapYear_iff] at hleap
    omega

/-- The days from the first of March at or before a date. -/
def Date.dayOfMarchYear (date : Date) : Int := daysBeforeMonth date.marchMonth + date.day - 1

theorem Date.dayNumber_eq (date : Date) :
    date.dayNumber = daysBeforeMarch date.marchYear + date.dayOfMarchYear - epochDay := by
  rw [Date.dayNumber, daysBeforeMarch, dayOfMarchYear]
  omega

end March

section Next

/-- The day after a date. -/
def Date.next (date : Date) : Date :=
  if date.day < daysInMonth date.year date.month then { date with day := date.day + 1 }
  else if date.month < 12 then { date with month := date.month + 1, day := 1 }
  else { year := date.year + 1, month := 1, day := 1 }

theorem Date.IsValid.isValid_next {date : Date} (h : date.IsValid) : date.next.IsValid := by
  obtain ⟨hlow, hhigh, hday, hlast⟩ := h
  unfold Date.next
  split
  · next hmore => exact ⟨hlow, hhigh, Nat.le_add_left 1 _, hmore⟩
  split
  · next _ hmonth =>
    exact ⟨Nat.le_add_left 1 _, hmonth, Nat.le_refl 1, daysInMonth_pos _ ⟨by simp, hmonth⟩⟩
  · simp [Date.IsValid, daysInMonth]

theorem dayNumber_of_day (year : Int) (month day : Nat) :
    (Date.mk year month day).dayNumber = (Date.mk year month 1).dayNumber + day - 1 := by
  simp only [Date.dayNumber, Date.marchYear, Date.marchMonth]
  omega

/-- Only from February to March does the year that begins in March change. -/
theorem dayNumber_next_month (year : Int) {month : Nat} (h : 1 ≤ month ∧ month < 12) :
    (Date.mk year (month + 1) 1).dayNumber =
      (Date.mk year month 1).dayNumber + daysInMonth year month := by
  obtain ⟨hlow, hhigh⟩ := h
  have hmarch := daysBeforeMarch_succ year
  interval_cases month
  all_goals
    simp only [Date.dayNumber_eq, Date.dayOfMarchYear, Date.marchYear, Date.marchMonth,
      daysBeforeMonth, daysInMonth] at hmarch ⊢
    norm_num at hmarch ⊢
    try omega

theorem dayNumber_next_year (year : Int) :
    (Date.mk (year + 1) 1 1).dayNumber = (Date.mk year 12 1).dayNumber + 31 := by
  simp [Date.dayNumber_eq, Date.dayOfMarchYear, Date.marchYear, Date.marchMonth, daysBeforeMonth]
  omega

theorem Date.IsValid.dayNumber_next {date : Date} (h : date.IsValid) :
    date.next.dayNumber = date.dayNumber + 1 := by
  obtain ⟨year, month, day⟩ := date
  obtain ⟨hlow, hhigh, hday, hlast⟩ := h
  dsimp only at hlow hhigh hday hlast
  have hstart := dayNumber_of_day year month day
  by_cases hmore : day < daysInMonth year month
  · have hnext : (Date.mk year month day).next = ⟨year, month, day + 1⟩ := if_pos hmore
    rw [hnext, dayNumber_of_day]
    omega
  have hend : day = daysInMonth year month := Nat.le_antisymm hlast (Nat.le_of_not_lt hmore)
  by_cases hmonth : month < 12
  · have hnext : (Date.mk year month day).next = ⟨year, month + 1, 1⟩ :=
      (if_neg hmore).trans (if_pos hmonth)
    rw [hnext, dayNumber_next_month year ⟨hlow, hmonth⟩]
    omega
  · obtain rfl : month = 12 := Nat.le_antisymm hhigh (Nat.le_of_not_lt hmonth)
    have hnext : (Date.mk year 12 day).next = ⟨year + 1, 1, 1⟩ :=
      (if_neg hmore).trans (if_neg hmonth)
    have hlength : daysInMonth year 12 = 31 := rfl
    rw [hnext, dayNumber_next_year]
    omega

end Next

section Inverse

/-- A day of a year that begins in March, the year being one of an era. Only where a leap day ends
the year is there a day 365. -/
structure IsDayOfYear (yearOfEra dayOfYear : Int) : Prop where
  year : 0 ≤ yearOfEra ∧ yearOfEra < 400
  nonneg : 0 ≤ dayOfYear
  le : dayOfYear < 365 ∨ dayOfYear = 365 ∧
    (yearOfEra + 1) % 4 = 0 ∧ ((yearOfEra + 1) % 100 ≠ 0 ∨ (yearOfEra + 1) % 400 = 0)

/-- The century of an era that a day is in, `rest` days into it. The last century is one day longer
than the others. -/
theorem century_of_day {century rest : Int} (hcentury : 0 ≤ century ∧ century ≤ 3)
    (hrest : 0 ≤ rest ∧ (rest < 36524 ∨ rest = 36524 ∧ century = 3)) :
    (36524 * century + rest) / 36524 - (36524 * century + rest) / 146096 = century := by
  obtain ⟨hnonneg, hshort | ⟨rfl, rfl⟩⟩ := hrest
  · omega
  · decide

/-- The year of an era is found from any of its days. In units of 1460 days the leap days before it
and, at the end of a leap year, its own make up for what is counted too much. -/
theorem yearOfEraOfDay_eq {yearOfEra dayOfYear : Int} (h : IsDayOfYear yearOfEra dayOfYear) :
    yearOfEraOfDay (daysBeforeYear yearOfEra + dayOfYear) = yearOfEra := by
  obtain ⟨hyear, hnonneg, hle⟩ := h
  obtain ⟨century, cycle, rest, hcentury, hcycle, hrest, rfl⟩ : ∃ century cycle rest : Int,
      (0 ≤ century ∧ century ≤ 3) ∧ (0 ≤ cycle ∧ cycle ≤ 24) ∧ (0 ≤ rest ∧ rest ≤ 3) ∧
        yearOfEra = 100 * century + 4 * cycle + rest :=
    ⟨yearOfEra / 100, yearOfEra % 100 / 4, yearOfEra % 4, by omega, by omega, by omega, by omega⟩
  have hleap : dayOfYear < 365 ∨ dayOfYear = 365 ∧ rest = 3 ∧ (cycle < 24 ∨ century = 3) := by
    omega
  have hday : daysBeforeYear (100 * century + 4 * cycle + rest) + dayOfYear =
      36524 * century + (1461 * cycle + 365 * rest + dayOfYear) := by
    unfold daysBeforeYear
    omega
  rw [hday, yearOfEraOfDay]
  clear hle hyear hday
  have hcenturies :
      (36524 * century + (1461 * cycle + 365 * rest + dayOfYear)) / 36524 -
        (36524 * century + (1461 * cycle + 365 * rest + dayOfYear)) / 146096 = century :=
    century_of_day hcentury (by omega)
  have hunits : (36524 * century + (1461 * cycle + 365 * rest + dayOfYear)) / 1460 =
      25 * century + cycle + (24 * century + cycle + 365 * rest + dayOfYear) / 1460 := by
    omega
  have hown : (24 * century + cycle + 365 * rest + dayOfYear) / 1460 = 0 ∧ dayOfYear < 365 ∨
      (24 * century + cycle + 365 * rest + dayOfYear) / 1460 = 1 ∧ 0 < dayOfYear := by
    omega
  rw [hunits]
  omega

theorem daysBeforeYear_add_lt {yearOfEra dayOfYear : Int} (h : IsDayOfYear yearOfEra dayOfYear) :
    0 ≤ daysBeforeYear yearOfEra + dayOfYear ∧
      daysBeforeYear yearOfEra + dayOfYear < daysPerEra := by
  obtain ⟨hyear, hnonneg, hle⟩ := h
  unfold daysBeforeYear daysPerEra
  omega

/-- The month, counted from March, is found from the day of the year. -/
theorem month_of_day {month dayOfYear : Int}
    (h : daysBeforeMonth month ≤ dayOfYear ∧ dayOfYear < daysBeforeMonth (month + 1)) :
    (5 * dayOfYear + 2) / 153 = month := by
  unfold daysBeforeMonth at h
  omega

variable {date : Date} (h : date.IsValid)

include h

/-- A month ends before the next one begins. February is the last month, so nothing hangs on its
length here. -/
theorem Date.IsValid.dayOfMarchYear_lt :
    daysBeforeMonth date.marchMonth ≤ date.dayOfMarchYear ∧
      date.dayOfMarchYear < daysBeforeMonth (date.marchMonth + 1) := by
  obtain ⟨year, month, day⟩ := date
  obtain ⟨hlow, hhigh, hday, hlast⟩ := h
  dsimp only at hlow hhigh hday hlast
  have hfebruary : daysInMonth year 2 ≤ 29 := by
    rw [daysInMonth_february]
    split <;> decide
  interval_cases month
  all_goals
    simp only [Date.dayOfMarchYear, Date.marchMonth, daysBeforeMonth, daysInMonth] at *
    omega

theorem Date.IsValid.isDayOfYear : IsDayOfYear (date.marchYear % 400) date.dayOfMarchYear := by
  have hmonth := h.dayOfMarchYear_lt
  obtain ⟨year, month, day⟩ := date
  obtain ⟨hlow, hhigh, hday, hlast⟩ := h
  dsimp only at hlow hhigh hday hlast
  refine ⟨by omega, ?_, ?_⟩
  · simp only [Date.marchMonth, daysBeforeMonth] at hmonth
    omega
  by_cases hfebruary : month = 2
  · subst hfebruary
    rw [daysInMonth_february] at hlast
    have hyear : (Date.mk year 2 day).marchYear = year - 1 := rfl
    have hdays : (Date.mk year 2 day).dayOfMarchYear = 337 + day - 1 := by
      simp [Date.dayOfMarchYear, Date.marchMonth, daysBeforeMonth]
    rw [hyear, hdays]
    split at hlast
    · next hleap =>
      rw [isLeapYear_iff] at hleap
      omega
    · omega
  · left
    simp only [Date.dayOfMarchYear, Date.marchMonth, daysBeforeMonth] at hmonth ⊢
    omega

theorem Date.IsValid.era_eq :
    (date.dayNumber + epochDay) / daysPerEra = date.marchYear / 400 := by
  have hera := daysBeforeYear_add_lt h.isDayOfYear
  rw [date.dayNumber_eq, daysBeforeMarch]
  unfold daysPerEra at *
  omega

theorem Date.IsValid.dayOfEra_eq : (date.dayNumber + epochDay) % daysPerEra =
    daysBeforeYear (date.marchYear % 400) + date.dayOfMarchYear := by
  have hera := daysBeforeYear_add_lt h.isDayOfYear
  rw [date.dayNumber_eq, daysBeforeMarch]
  unfold daysPerEra at *
  omega

/-- A date is found again from its number. -/
theorem Date.IsValid.ofDayNumber_dayNumber : Date.ofDayNumber date.dayNumber = date := by
  have hyear := yearOfEraOfDay_eq h.isDayOfYear
  have hmonth := month_of_day h.dayOfMarchYear_lt
  have hdays : daysBeforeYear (date.marchYear % 400) + date.dayOfMarchYear -
      daysBeforeYear (date.marchYear % 400) = date.dayOfMarchYear := by
    omega
  have hday : date.dayOfMarchYear - daysBeforeMonth date.marchMonth + 1 = date.day := by
    unfold Date.dayOfMarchYear
    omega
  simp only [Date.ofDayNumber, h.era_eq, h.dayOfEra_eq, hyear, hdays, hmonth, hday,
    Int.toNat_natCast]
  obtain ⟨year, month, day⟩ := date
  obtain ⟨hlow, hhigh, -, -⟩ := h
  dsimp only at hlow hhigh
  simp only [Date.marchYear, Date.marchMonth, Date.mk.injEq, and_true]
  constructor <;> split_ifs <;> omega

end Inverse

section Order

/-- The order of dates: by year, then by month, then by day. -/
def Date.Before (a b : Date) : Prop :=
  a.year < b.year ∨
    a.year = b.year ∧ (a.month < b.month ∨ a.month = b.month ∧ a.day < b.day)

theorem Date.Before.trans {a b c : Date} (hab : a.Before b) (hbc : b.Before c) : a.Before c := by
  unfold Date.Before at *
  omega

theorem Date.Before.not_before {a b : Date} (h : a.Before b) : ¬ b.Before a := by
  unfold Date.Before at *
  omega

theorem Date.before_next (date : Date) : date.Before date.next := by
  unfold Date.next
  split
  · exact .inr ⟨rfl, .inr ⟨rfl, Nat.lt_succ_self _⟩⟩
  split
  · exact .inr ⟨rfl, .inl (Nat.lt_succ_self _)⟩
  · exact .inl (Int.lt_succ _)

/-- Eras all have the same length, so there is a New Year's Day before every day. -/
theorem dayNumber_era (era : Int) :
    (Date.mk (1970 + 400 * era) 1 1).dayNumber = era * daysPerEra := by
  have hyear : (Date.mk (1970 + 400 * era) 1 1).marchYear = 1969 + 400 * era := by
    simp only [Date.marchYear]
    omega
  have hday : (Date.mk (1970 + 400 * era) 1 1).dayOfMarchYear = 306 := by
    simp [Date.dayOfMarchYear, Date.marchMonth, daysBeforeMonth]
  rw [Date.dayNumber_eq, hyear, hday, daysBeforeMarch_eq]
  unfold daysPerEra epochDay
  omega

/-- Every number belongs to a day: an era begins before it, and from there on each day has a next
one. -/
theorem exists_dayNumber_eq (number : Int) :
    ∃ date : Date, date.IsValid ∧ date.dayNumber = number := by
  have hstart : number / daysPerEra * daysPerEra ≤ number := by
    unfold daysPerEra
    omega
  generalize number / daysPerEra = era at hstart
  induction number, hstart using Int.leInduction with
  | base =>
    exact ⟨⟨1970 + 400 * era, 1, 1⟩, by simp [Date.IsValid, daysInMonth], dayNumber_era era⟩
  | succ n _ ih =>
    obtain ⟨date, hdate, rfl⟩ := ih
    exact ⟨date.next, hdate.isValid_next, hdate.dayNumber_next⟩

theorem Date.isValid_ofDayNumber (number : Int) : (Date.ofDayNumber number).IsValid := by
  obtain ⟨date, hdate, rfl⟩ := exists_dayNumber_eq number
  rwa [hdate.ofDayNumber_dayNumber]

theorem Date.dayNumber_ofDayNumber (number : Int) :
    (Date.ofDayNumber number).dayNumber = number := by
  obtain ⟨date, hdate, rfl⟩ := exists_dayNumber_eq number
  rw [hdate.ofDayNumber_dayNumber]

theorem Date.ofDayNumber_succ (number : Int) :
    Date.ofDayNumber (number + 1) = (Date.ofDayNumber number).next := by
  have hvalid := Date.isValid_ofDayNumber number
  have hnext := hvalid.dayNumber_next
  rw [Date.dayNumber_ofDayNumber] at hnext
  rw [← hnext, hvalid.isValid_next.ofDayNumber_dayNumber]

theorem Date.before_ofDayNumber {m n : Int} (h : m + 1 ≤ n) :
    (Date.ofDayNumber m).Before (Date.ofDayNumber n) := by
  induction n, h using Int.leInduction with
  | base =>
    rw [Date.ofDayNumber_succ]
    exact Date.before_next _
  | succ n _ ih =>
    rw [Date.ofDayNumber_succ]
    exact ih.trans (Date.before_next _)

/-- Days are in order just if their numbers are. -/
theorem Date.IsValid.before_iff {a b : Date} (ha : a.IsValid) (hb : b.IsValid) :
    a.Before b ↔ a.dayNumber < b.dayNumber := by
  have hmono {a b : Date} (ha : a.IsValid) (hb : b.IsValid) (h : a.dayNumber < b.dayNumber) :
      a.Before b := by
    rw [← ha.ofDayNumber_dayNumber, ← hb.ofDayNumber_dayNumber]
    exact Date.before_ofDayNumber h
  refine ⟨fun hbefore => ?_, hmono ha hb⟩
  by_contra hle
  rcases Int.lt_or_eq_of_le (Int.not_lt.mp hle) with hlt | heq
  · exact hbefore.not_before (hmono hb ha hlt)
  · have hsame : a = b := by
      rw [← ha.ofDayNumber_dayNumber, ← heq, hb.ofDayNumber_dayNumber]
    subst hsame
    exact hbefore.not_before hbefore

end Order

end TableCalc.Calendar
