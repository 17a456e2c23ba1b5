import TableCalc.Proofs.Calendar.Dates
import TableCalc.Text.Digit

/-!
The numbering of dates in machine arithmetic. Both conversions are carried out here step by step on
signed words of 64 bits, with division that drops the fraction toward zero; a step whose result is no
such word gives nothing. For a thousand million years on either side of the year 0 every step fits,
and what comes out is the number of the date, and the date of the number.
-/

namespace TableCalc

namespace Word

/-- A number as a word, if it is one. -/
def fit? (n : Int) : Option Int := if Text.isInt64 n then some n else none

def add? (a b : Int) : Option Int := fit? (a + b)

def sub? (a b : Int) : Option Int := fit? (a - b)

def mul? (a b : Int) : Option Int := fit? (a * b)

/-- Division of words drops the fraction. -/
def div? (a b : Int) : Option Int := fit? (a.tdiv b)

/-- The quotient rounded down. A dividend below zero is lowered before the fraction is dropped. -/
def floorDiv? (a b : Int) : Option Int :=
  if 0 ≤ a then div? a b else (sub? a (b - 1)).bind (div? · b)

theorem isInt64_iff {n : Int} :
    Text.isInt64 n = true ↔ -9223372036854775808 ≤ n ∧ n ≤ 9223372036854775807 := by
  rw [Text.isInt64, Bool.and_eq_true, decide_eq_true_iff, decide_eq_true_iff]
  rfl

/-- A step that fits, and what comes after it. -/
theorem bind_eq_some {α β : Type} {x : Option α} {f : α → Option β} {a : α} {b : β}
    (hx : x = some a) (hf : f a = some b) : (x >>= f) = some b := by
  rw [hx]
  exact hf

section Fits

variable {a b : Int}

theorem fit?_eq {n : Int} (h : -9223372036854775808 ≤ n ∧ n ≤ 9223372036854775807) :
    fit? n = some n :=
  if_pos (isInt64_iff.mpr h)

theorem add?_eq (h : -9223372036854775808 ≤ a + b ∧ a + b ≤ 9223372036854775807) :
    add? a b = some (a + b) :=
  fit?_eq h

theorem sub?_eq (h : -9223372036854775808 ≤ a - b ∧ a - b ≤ 9223372036854775807) :
    sub? a b = some (a - b) :=
  fit?_eq h

theorem mul?_eq (h : -9223372036854775808 ≤ a * b ∧ a * b ≤ 9223372036854775807) :
    mul? a b = some (a * b) :=
  fit?_eq h

/-- Where nothing is below zero, division rounds down by itself. -/
theorem div?_eq (ha : 0 ≤ a ∧ a ≤ 9223372036854775807) (hb : 0 ≤ b) :
    div? a b = some (a / b) := by
  have hquotient : a / b ≤ a := Int.ediv_le_self b ha.1
  have hnonneg : 0 ≤ a / b := Int.ediv_nonneg ha.1 hb
  rw [div?, Int.tdiv_eq_ediv_of_nonneg ha.1]
  exact fit?_eq (by omega)

theorem tdiv_lowered (ha : a < 0) (hb : 0 < b) : (a - (b - 1)).tdiv b = a / b := by
  have hdivide := Int.mul_ediv_add_emod a b
  have hrest := Int.emod_nonneg a (Int.ne_of_gt hb)
  have hsmall := Int.emod_lt_of_pos a hb
  have hlowered : a - (b - 1) = -(b - 1 - a % b + b * -(a / b)) := by
    rw [Int.mul_neg]
    omega
  have hquotient : (b - 1 - a % b + b * -(a / b)) / b = -(a / b) := by
    rw [Int.add_mul_ediv_left _ _ (Int.ne_of_gt hb),
      Int.ediv_eq_zero_of_lt (a := b - 1 - a % b) (by omega) (by omega), Int.zero_add]
  rw [hlowered, Int.neg_tdiv, Int.tdiv_eq_ediv_of_nonneg (by omega), hquotient, Int.neg_neg]

theorem floorDiv?_eq (ha : -4611686018427387904 ≤ a ∧ a ≤ 4611686018427387904)
    (hb : 0 < b ∧ b ≤ 4611686018427387904) : floorDiv? a b = some (a / b) := by
  by_cases hnonneg : 0 ≤ a
  · rw [floorDiv?, if_pos hnonneg]
    exact div?_eq (by omega) (by omega)
  · have hneg : a < 0 := Int.not_le.mp hnonneg
    rw [floorDiv?, if_neg hnonneg, sub?_eq (by omega)]
    have hlow : a ≤ a / b := by
      apply Int.le_ediv_of_mul_le hb.1
      have hmul := Int.mul_le_mul_of_nonpos_left (a := a) (b := b) (c := 1) (by omega) (by omega)
      omega
    have hhigh : a / b < 0 := Int.ediv_neg_of_neg_of_pos hneg hb.1
    rw [Option.bind_some, div?, tdiv_lowered hneg hb.1]
    exact fit?_eq (by omega)

end Fits

end Word

namespace Calendar

open Word

def daysBeforeMonth? (marchMonth : Int) : Option Int := do
  div? (← add? (← mul? 153 marchMonth) 2) 5

def daysBeforeYear? (yearOfEra : Int) : Option Int := do
  sub? (← add? (← mul? yearOfEra 365) (← div? yearOfEra 4)) (← div? yearOfEra 100)

def yearOfEraOfDay? (dayOfEra : Int) : Option Int := do
  let days ← add? (← sub? dayOfEra (← div? dayOfEra 1460)) (← div? dayOfEra 36524)
  div? (← sub? days (← div? dayOfEra 146096)) 365

def Date.marchYear? (date : Date) : Option Int :=
  if date.month ≤ 2 then sub? date.year 1 else some date.year

def Date.marchMonth? (date : Date) : Option Int :=
  if 2 < date.month then sub? date.month 3 else add? date.month 9

def Date.dayOfMarchYear? (date : Date) : Option Int := do
  sub? (← add? (← daysBeforeMonth? (← date.marchMonth?)) date.day) 1

/-- The number of a date, computed on words. -/
def Date.dayNumber? (date : Date) : Option Int := do
  let year ← date.marchYear?
  let era ← floorDiv? year 400
  let yearOfEra ← sub? year (← mul? era 400)
  let dayOfEra ← add? (← daysBeforeYear? yearOfEra) (← date.dayOfMarchYear?)
  sub? (← add? (← mul? era daysPerEra) dayOfEra) epochDay

/-- The month of the calendar for a month that is counted from March. -/
def civilMonth? (marchMonth : Int) : Option Int :=
  if marchMonth < 10 then add? marchMonth 3 else sub? marchMonth 9

/-- The year of the calendar in which a month of a year from March lies. -/
def civilYear? (marchYear month : Int) : Option Int :=
  if month ≤ 2 then add? marchYear 1 else some marchYear

def Date.ofMarchYear? (marchYear dayOfYear : Int) : Option Date := do
  let marchMonth ← div? (← add? (← mul? 5 dayOfYear) 2) 153
  let day ← add? (← sub? dayOfYear (← daysBeforeMonth? marchMonth)) 1
  let month ← civilMonth? marchMonth
  let year ← civilYear? marchYear month
  return { year := year, month := month.toNat, day := day.toNat }

/-- The date of a number, computed on words. -/
def Date.ofDayNumber? (number : Int) : Option Date := do
  let shifted ← add? number epochDay
  let era ← floorDiv? shifted daysPerEra
  let dayOfEra ← sub? shifted (← mul? era daysPerEra)
  let yearOfEra ← yearOfEraOfDay? dayOfEra
  let marchYear ← add? yearOfEra (← mul? era 400)
  Date.ofMarchYear? marchYear (← sub? dayOfEra (← daysBeforeYear? yearOfEra))

theorem daysBeforeMonth?_eq {marchMonth : Int} (h : 0 ≤ marchMonth ∧ marchMonth ≤ 11) :
    daysBeforeMonth? marchMonth = some (daysBeforeMonth marchMonth) := by
  simp (disch := omega) only [daysBeforeMonth?, daysBeforeMonth, mul?_eq, add?_eq, div?_eq,
    Option.bind_eq_bind, Option.bind_some]

theorem daysBeforeYear?_eq {yearOfEra : Int} (h : 0 ≤ yearOfEra ∧ yearOfEra < 400) :
    daysBeforeYear? yearOfEra = some (daysBeforeYear yearOfEra) := by
  simp (disch := omega) only [daysBeforeYear?, daysBeforeYear, mul?_eq, add?_eq, sub?_eq, div?_eq,
    Option.bind_eq_bind, Option.bind_some]

theorem yearOfEraOfDay?_eq {dayOfEra : Int} (h : 0 ≤ dayOfEra ∧ dayOfEra < daysPerEra) :
    yearOfEraOfDay? dayOfEra = some (yearOfEraOfDay dayOfEra) := by
  unfold daysPerEra at h
  simp (disch := omega) only [yearOfEraOfDay?, yearOfEraOfDay, add?_eq, sub?_eq, div?_eq,
    Option.bind_eq_bind, Option.bind_some]

/-- A date within a thousand million years of the year 0. -/
def Date.InReach (date : Date) : Prop := -1000000000 ≤ date.year ∧ date.year ≤ 1000000000

section Reach

variable {date : Date}

theorem Date.InReach.marchYear_bounds (hreach : date.InReach) :
    -1000000001 ≤ date.marchYear ∧ date.marchYear ≤ 1000000000 := by
  obtain ⟨hlow, hhigh⟩ := hreach
  unfold Date.marchYear
  split <;> omega

variable (h : date.IsValid)

include h

theorem Date.IsValid.marchMonth_bounds : 0 ≤ date.marchMonth ∧ date.marchMonth ≤ 11 := by
  obtain ⟨hlow, hhigh, -, -⟩ := h
  unfold Date.marchMonth
  split <;> omega

theorem Date.IsValid.dayOfMarchYear_bounds :
    0 ≤ date.dayOfMarchYear ∧ date.dayOfMarchYear ≤ 365 := by
  have hday := h.isDayOfYear
  have hle := hday.le
  exact ⟨hday.nonneg, by omega⟩

/-- Every step from a date to its day in the year from March fits a word. -/
theorem Date.IsValid.dayOfMarchYear?_eq :
    date.dayOfMarchYear? = some date.dayOfMarchYear := by
  have hmonthBounds := h.marchMonth_bounds
  have hdayBounds := h.dayOfMarchYear_bounds
  unfold Date.dayOfMarchYear at hdayBounds
  have hmonth : date.marchMonth? = some date.marchMonth := by
    unfold Date.marchMonth at hmonthBounds
    unfold Date.marchMonth? Date.marchMonth
    split
    · exact sub?_eq (by omega)
    · exact add?_eq (by omega)
  have hbefore : add? (daysBeforeMonth date.marchMonth) date.day =
      some (daysBeforeMonth date.marchMonth + date.day) :=
    add?_eq (by omega)
  have hday : sub? (daysBeforeMonth date.marchMonth + date.day) 1 = some date.dayOfMarchYear :=
    sub?_eq (by omega)
  exact bind_eq_some hmonth <| bind_eq_some (daysBeforeMonth?_eq hmonthBounds) <|
    bind_eq_some hbefore hday

variable (hreach : date.InReach)

include hreach

/-- Every step from a day in the year from March to its date fits a word. -/
theorem Date.IsValid.ofMarchYear?_eq :
    Date.ofMarchYear? date.marchYear date.dayOfMarchYear = some date := by
  have hyearBounds := hreach.marchYear_bounds
  have hdayBounds := h.dayOfMarchYear_bounds
  have hbeforeBounds : 0 ≤ daysBeforeMonth date.marchMonth := by
    have hmonthBounds := h.marchMonth_bounds
    unfold daysBeforeMonth
    omega
  have hfive : mul? 5 date.dayOfMarchYear = some (5 * date.dayOfMarchYear) := mul?_eq (by omega)
  have htwo : add? (5 * date.dayOfMarchYear) 2 = some (5 * date.dayOfMarchYear + 2) :=
    add?_eq (by omega)
  have hmonth : div? (5 * date.dayOfMarchYear + 2) 153 = some date.marchMonth := by
    rw [div?_eq (by omega) (by omega), month_of_day h.dayOfMarchYear_lt]
  have hdayEq : date.dayOfMarchYear - daysBeforeMonth date.marchMonth = date.day - 1 := by
    unfold Date.dayOfMarchYear
    omega
  have hbefore : sub? date.dayOfMarchYear (daysBeforeMonth date.marchMonth) =
      some ((date.day : Int) - 1) :=
    (sub?_eq (by omega)).trans (congrArg some hdayEq)
  have hday : add? ((date.day : Int) - 1) 1 = some (date.day : Int) :=
    (add?_eq (by omega)).trans (congrArg some (by omega))
  have hbeforeMonth := daysBeforeMonth?_eq h.marchMonth_bounds
  obtain ⟨hlow, hhigh, -, -⟩ := h
  have hcivilMonth : civilMonth? date.marchMonth = some (date.month : Int) := by
    unfold civilMonth? Date.marchMonth
    split_ifs
    · exact (add?_eq (by omega)).trans (congrArg some (by omega))
    · omega
    · omega
    · exact (sub?_eq (by omega)).trans (congrArg some (by omega))
  have hcivilYear : civilYear? date.marchYear date.month = some date.year := by
    unfold civilYear? Date.marchYear at *
    split_ifs at *
    · exact (add?_eq (by omega)).trans (congrArg some (by omega))
    · omega
    · omega
    · rfl
  exact bind_eq_some hfive <| bind_eq_some htwo <| bind_eq_some hmonth <|
    bind_eq_some hbeforeMonth <| bind_eq_some hbefore <| bind_eq_some hday <|
    bind_eq_some hcivilMonth <| bind_eq_some hcivilYear rfl

/-- Every step from a date in reach to its number fits a word. -/
theorem Date.IsValid.dayNumber?_eq : date.dayNumber? = some date.dayNumber := by
  have hyearBounds := hreach.marchYear_bounds
  have hdayBounds := h.dayOfMarchYear_bounds
  have heraBounds := daysBeforeYear_add_lt h.isDayOfYear
  have hmarch := daysBeforeMarch_eq date.marchYear
  have hnumber := date.dayNumber_eq
  unfold daysPerEra at heraBounds
  have hyear : date.marchYear? = some date.marchYear := by
    unfold Date.marchYear? Date.marchYear
    obtain ⟨hlow, hhigh⟩ := hreach
    split
    · exact sub?_eq (by omega)
    · rfl
  have hera : floorDiv? date.marchYear 400 = some (date.marchYear / 400) :=
    floorDiv?_eq (by omega) (by omega)
  have hyears : mul? (date.marchYear / 400) 400 = some (date.marchYear / 400 * 400) :=
    mul?_eq (by omega)
  have hyearOfEra : sub? date.marchYear (date.marchYear / 400 * 400) =
      some (date.marchYear % 400) :=
    (sub?_eq (by omega)).trans (congrArg some (by omega))
  have hdayOfEra : add? (daysBeforeYear (date.marchYear % 400)) date.dayOfMarchYear =
      some (daysBeforeYear (date.marchYear % 400) + date.dayOfMarchYear) :=
    add?_eq (by omega)
  have hdays : mul? (date.marchYear / 400) daysPerEra =
      some (date.marchYear / 400 * daysPerEra) := by
    unfold daysPerEra
    exact mul?_eq (by omega)
  have hfromMarch : add? (date.marchYear / 400 * daysPerEra)
      (daysBeforeYear (date.marchYear % 400) + date.dayOfMarchYear) =
        some (date.dayNumber + epochDay) := by
    rw [hnumber, daysBeforeMarch]
    unfold daysPerEra
    exact (add?_eq (by omega)).trans (congrArg some (by omega))
  have hepoch : sub? (date.dayNumber + epochDay) epochDay = some date.dayNumber := by
    unfold epochDay at hnumber ⊢
    exact (sub?_eq (by omega)).trans (congrArg some (by omega))
  exact bind_eq_some hyear <| bind_eq_some hera <| bind_eq_some hyears <|
    bind_eq_some hyearOfEra <| bind_eq_some (daysBeforeYear?_eq h.isDayOfYear.year) <|
    bind_eq_some h.dayOfMarchYear?_eq <| bind_eq_some hdayOfEra <| bind_eq_some hdays <|
    bind_eq_some hfromMarch hepoch

/-- Every step from the number of a date in reach to the date fits a word. -/
theorem Date.IsValid.ofDayNumber?_eq : Date.ofDayNumber? date.dayNumber = some date := by
  have hyearBounds := hreach.marchYear_bounds
  have hdayBounds := h.dayOfMarchYear_bounds
  have heraBounds := daysBeforeYear_add_lt h.isDayOfYear
  have hmarch := daysBeforeMarch_eq date.marchYear
  have hnumber := date.dayNumber_eq
  have hshifted : add? date.dayNumber epochDay = some (date.dayNumber + epochDay) := by
    unfold epochDay at *
    exact add?_eq (by omega)
  have hera : floorDiv? (date.dayNumber + epochDay) daysPerEra =
      some (date.marchYear / 400) := by
    rw [floorDiv?_eq (by omega) (by unfold daysPerEra; omega), h.era_eq]
  have hdays : mul? (date.marchYear / 400) daysPerEra =
      some (date.marchYear / 400 * daysPerEra) := by
    unfold daysPerEra
    exact mul?_eq (by omega)
  have hdayOfEra : sub? (date.dayNumber + epochDay) (date.marchYear / 400 * daysPerEra) =
      some (daysBeforeYear (date.marchYear % 400) + date.dayOfMarchYear) := by
    rw [hnumber, daysBeforeMarch]
    unfold daysPerEra at heraBounds ⊢
    exact (sub?_eq (by omega)).trans (congrArg some (by omega))
  have hyearOfEra : yearOfEraOfDay? (daysBeforeYear (date.marchYear % 400) + date.dayOfMarchYear) =
      some (date.marchYear % 400) := by
    rw [yearOfEraOfDay?_eq heraBounds, yearOfEraOfDay_eq h.isDayOfYear]
  have hyears : mul? (date.marchYear / 400) 400 = some (date.marchYear / 400 * 400) :=
    mul?_eq (by omega)
  have hyear : add? (date.marchYear % 400) (date.marchYear / 400 * 400) = some date.marchYear :=
    (add?_eq (by omega)).trans (congrArg some (by omega))
  have hdayOfYear : sub? (daysBeforeYear (date.marchYear % 400) + date.dayOfMarchYear)
      (daysBeforeYear (date.marchYear % 400)) = some date.dayOfMarchYear :=
    (sub?_eq (by omega)).trans (congrArg some (by omega))
  exact bind_eq_some hshifted <| bind_eq_some hera <| bind_eq_some hdays <|
    bind_eq_some hdayOfEra <| bind_eq_some hyearOfEra <| bind_eq_some hyears <|
    bind_eq_some hyear <| bind_eq_some (daysBeforeYear?_eq h.isDayOfYear.year) <|
    bind_eq_some hdayOfYear (h.ofMarchYear?_eq hreach)

end Reach

/-- The dates in reach are those whose numbers lie between the numbers of the first and the last of
them. -/
theorem Date.inReach_ofDayNumber {number : Int}
    (hlow : (Date.mk (-1000000000) 1 1).dayNumber ≤ number)
    (hhigh : number ≤ (Date.mk 1000000000 12 31).dayNumber) :
    (Date.ofDayNumber number).InReach := by
  have hvalid := Date.isValid_ofDayNumber number
  have hfirst : ¬ (Date.ofDayNumber number).Before ⟨-1000000000, 1, 1⟩ := by
    rw [hvalid.before_iff (by decide), Date.dayNumber_ofDayNumber]
    omega
  have hlast : ¬ (Date.mk 1000000000 12 31).Before (Date.ofDayNumber number) := by
    rw [Date.IsValid.before_iff (by decide) hvalid, Date.dayNumber_ofDayNumber]
    omega
  exact ⟨Int.not_lt.mp fun hyear => hfirst (.inl hyear),
    Int.not_lt.mp fun hyear => hlast (.inl hyear)⟩

/-- Dates and numbers correspond. Within a thousand million years of the year 0 each day of the
calendar is found again from its number, and the day after it, a new month, a leap day or a new year
not excepted, has the next number. Each number from that of the first of these days to that of the
last is the number of the valid date that it is turned into. Days are in order just if their numbers
are, and they are counted from 1970-01-01. Whichever way the conversion goes, every step of it is a
word of 64 bits. -/
theorem dates_correspond_to_numbers :
    (∀ date : Date, date.IsValid → date.InReach →
      Date.ofDayNumber date.dayNumber = date ∧
      date.next.IsValid ∧ date.next.dayNumber = date.dayNumber + 1 ∧
      date.dayNumber? = some date.dayNumber ∧
      Date.ofDayNumber? date.dayNumber = some date) ∧
    (∀ number : Int, (Date.mk (-1000000000) 1 1).dayNumber ≤ number →
      number ≤ (Date.mk 1000000000 12 31).dayNumber →
      (Date.ofDayNumber number).IsValid ∧ (Date.ofDayNumber number).InReach ∧
      (Date.ofDayNumber number).dayNumber = number ∧
      Date.ofDayNumber? number = some (Date.ofDayNumber number) ∧
      (Date.ofDayNumber number).dayNumber? = some number) ∧
    (∀ a b : Date, a.IsValid → b.IsValid → (a.Before b ↔ a.dayNumber < b.dayNumber)) ∧
    (Date.mk 1970 1 1).dayNumber = 0 := by
  refine ⟨?_, ?_, fun a b ha hb => ha.before_iff hb, by decide⟩
  · intro date h hreach
    exact ⟨h.ofDayNumber_dayNumber, h.isValid_next, h.dayNumber_next, h.dayNumber?_eq hreach,
      h.ofDayNumber?_eq hreach⟩
  · intro number hlow hhigh
    have hvalid := Date.isValid_ofDayNumber number
    have hreach := Date.inReach_ofDayNumber hlow hhigh
    have hnumber := Date.dayNumber_ofDayNumber number
    refine ⟨hvalid, hreach, hnumber, ?_, ?_⟩
    · have hwords := hvalid.ofDayNumber?_eq hreach
      rwa [hnumber] at hwords
    · have hwords := hvalid.dayNumber?_eq hreach
      rwa [hnumber] at hwords

/-- The last day of a century that is a leap year, before the year 0, and the day after it. -/
theorem dates_correspond_to_numbers_leapDay :
    (Date.mk (-400) 2 29).IsValid ∧ (Date.mk (-400) 2 29).InReach ∧
    (Date.mk (-400) 2 29).next = ⟨-400, 3, 1⟩ ∧
    Date.ofDayNumber (Date.mk (-400) 2 29).dayNumber = ⟨-400, 2, 29⟩ ∧
    (Date.mk (-400) 3 1).dayNumber = (Date.mk (-400) 2 29).dayNumber + 1 ∧
    (Date.mk (-400) 2 29).dayNumber? = some (-865566) := by
  have hvalid : (Date.mk (-400) 2 29).IsValid := by decide
  have hreach : (Date.mk (-400) 2 29).InReach := ⟨by decide, by decide⟩
  obtain ⟨hback, -, hnext, hwords, -⟩ := dates_correspond_to_numbers.1 _ hvalid hreach
  exact ⟨hvalid, hreach, by decide, hback, hnext, hwords⟩

end Calendar

end TableCalc
