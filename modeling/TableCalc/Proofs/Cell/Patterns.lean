import TableCalc.Cell
import TableCalc.Proofs.Calendar.Texts
import TableCalc.Proofs.Decimal.Grammar

/-!
The patterns that the text of a cell is compared with. A text fits the pattern of date-times just if
it is the written form of fields whose digits are bounded one by one; what tells it from numbers and
durations is the mark between date and time, and what tells a duration is its colon.
-/

namespace TableCalc.Cell

open Text (paddedDigits paddedDigits_one paddedDigits_succ)
open Calendar (DateTime IsMark)
open Decimal.Grammar (Digits Sign)

section Fits

variable {p : Char → Bool} {ps qs : List (Char → Bool)} {cs : List Char}

theorem fits_nil : fits [] cs = true ↔ cs = [] := by
  cases cs <;> simp [fits]

theorem fits_cons :
    fits (p :: ps) cs = true ↔ ∃ c rest, cs = c :: rest ∧ p c = true ∧ fits ps rest = true := by
  cases cs <;> simp [fits]

theorem fits_append :
    fits (ps ++ qs) cs = true ↔
      ∃ front back, cs = front ++ back ∧ fits ps front = true ∧ fits qs back = true := by
  induction ps generalizing cs with
  | nil => simp [fits_nil]
  | cons p ps ih =>
    simp only [List.cons_append, fits_cons, ih]
    constructor
    · rintro ⟨c, rest, rfl, hc, front, back, rfl, hfront, hback⟩
      exact ⟨c :: front, back, rfl, ⟨c, front, rfl, hc, hfront⟩, hback⟩
    · rintro ⟨_, back, rfl, ⟨c, front, rfl, hc, hfront⟩, hback⟩
      exact ⟨c, front ++ back, rfl, hc, front, back, rfl, hfront, hback⟩

/-- Two patterns with one character between them. -/
theorem fits_around :
    fits (ps ++ p :: qs) cs = true ↔
      ∃ front c back, cs = front ++ c :: back ∧ fits ps front = true ∧ p c = true ∧
        fits qs back = true := by
  rw [fits_append]
  simp only [fits_cons]
  constructor
  · rintro ⟨front, _, rfl, hfront, c, back, rfl, hc, hback⟩
    exact ⟨front, c, back, rfl, hfront, hc, hback⟩
  · rintro ⟨front, c, back, rfl, hfront, hc, hback⟩
    exact ⟨front, _, rfl, hfront, c, back, rfl, hc, hback⟩

theorem fits_separated {separator : Char} :
    fits (ps ++ (· == separator) :: qs) cs = true ↔
      ∃ front back, cs = front ++ separator :: back ∧ fits ps front = true ∧
        fits qs back = true := by
  rw [fits_around]
  constructor
  · rintro ⟨front, c, back, rfl, hfront, hc, hback⟩
    rw [eq_of_beq hc]
    exact ⟨front, back, rfl, hfront, hback⟩
  · rintro ⟨front, back, rfl, hfront, hback⟩
    exact ⟨front, separator, back, rfl, hfront, beq_self_eq_true separator, hback⟩

end Fits

section Digits

variable {ps : List (Char → Bool)} {cs : List Char} {c : Char}

theorem between_iff {low high : Nat} (hlow : low < 10) (hhigh : high < 10) :
    between (Nat.digitChar low) (Nat.digitChar high) c = true ↔
      ∃ n, (low ≤ n ∧ n ≤ high) ∧ c = Nat.digitChar n := by
  have hbounds : between (Nat.digitChar low) (Nat.digitChar high) c = true ↔
      48 + low ≤ c.toNat ∧ c.toNat ≤ 48 + high := by
    rw [between, Bool.and_eq_true, decide_eq_true_iff, decide_eq_true_iff,
      ← Nat.toNat_digitChar_of_lt_ten hlow, ← Nat.toNat_digitChar_of_lt_ten hhigh]
    rfl
  rw [hbounds]
  constructor
  · rintro ⟨hle, hge⟩
    refine ⟨c.toNat - 48, by omega, Char.toNat_inj.mp ?_⟩
    rw [Nat.toNat_digitChar_of_lt_ten (by omega)]
    omega
  · rintro ⟨n, ⟨hle, hge⟩, rfl⟩
    rw [Nat.toNat_digitChar_of_lt_ten (by omega)]
    omega

theorem fits_digit {low high : Nat} {first last : Char} (hlow : low < 10) (hhigh : high < 10)
    (hfirst : Nat.digitChar low = first) (hlast : Nat.digitChar high = last) :
    fits [between first last] cs = true ↔
      ∃ n, (low ≤ n ∧ n ≤ high) ∧ cs = paddedDigits 1 n := by
  subst hfirst hlast
  simp only [fits_cons, fits_nil, between_iff hlow hhigh]
  constructor
  · rintro ⟨_, _, rfl, ⟨n, hn, rfl⟩, rfl⟩
    exact ⟨n, hn, (paddedDigits_one (by omega)).symm⟩
  · rintro ⟨n, hn, rfl⟩
    exact ⟨_, _, paddedDigits_one (by omega), ⟨n, hn, rfl⟩, rfl⟩

/-- One more digit behind a pattern of digits. -/
theorem fits_concat_digit {P : Nat → Prop} {width : Nat} (hwidth : 0 < width)
    (h : ∀ cs, fits ps cs = true ↔ ∃ n, P n ∧ cs = paddedDigits width n) :
    fits (ps ++ [Char.isDigit]) cs = true ↔
      ∃ n, P (n / 10) ∧ cs = paddedDigits (width + 1) n := by
  have hdigit (cs : List Char) : fits [Char.isDigit] cs = true ↔
      ∃ n, (0 ≤ n ∧ n ≤ 9) ∧ cs = paddedDigits 1 n :=
    fits_digit (by decide) (by decide) rfl rfl
  simp only [fits_append, h, hdigit]
  constructor
  · rintro ⟨_, _, rfl, ⟨n, hn, rfl⟩, digit, hdigit, rfl⟩
    refine ⟨10 * n + digit, ?_, ?_⟩
    · rwa [show (10 * n + digit) / 10 = n by omega]
    · rw [paddedDigits_succ hwidth (by omega), paddedDigits_one (by omega)]
  · rintro ⟨n, hn, rfl⟩
    refine ⟨_, _, ?_, ⟨n / 10, hn, rfl⟩, n % 10, ⟨Nat.zero_le _, by omega⟩, rfl⟩
    rw [paddedDigits_one (by omega), ← paddedDigits_succ hwidth (by omega)]
    congr 1
    omega

theorem fits_twoDigits {high : Nat} {last : Char} (hhigh : high < 10)
    (hlast : Nat.digitChar high = last) :
    fits [between '0' last, Char.isDigit] cs = true ↔
      ∃ n, n < 10 * high + 10 ∧ cs = paddedDigits 2 n := by
  have hfirst (cs : List Char) : fits [between '0' last] cs = true ↔
      ∃ n, (0 ≤ n ∧ n ≤ high) ∧ cs = paddedDigits 1 n := fits_digit (by decide) hhigh rfl hlast
  refine (fits_concat_digit (by decide) hfirst).trans (exists_congr fun n => and_congr_left' ?_)
  omega

theorem fits_year :
    fits [between '1' '9', Char.isDigit, Char.isDigit, Char.isDigit] cs = true ↔
      ∃ n, (1000 ≤ n ∧ n ≤ 9999) ∧ cs = paddedDigits 4 n := by
  have hfirst (cs : List Char) : fits [between '1' '9'] cs = true ↔
      ∃ n, (1 ≤ n ∧ n ≤ 9) ∧ cs = paddedDigits 1 n :=
    fits_digit (by decide) (by decide) rfl rfl
  have hfits : fits [between '1' '9', Char.isDigit, Char.isDigit, Char.isDigit] cs = true ↔
      ∃ n, (1 ≤ n / 10 / 10 / 10 ∧ n / 10 / 10 / 10 ≤ 9) ∧ cs = paddedDigits 4 n :=
    fits_concat_digit (by decide) fun _ => fits_concat_digit (by decide) fun _ =>
      fits_concat_digit (by decide) hfirst
  refine hfits.trans (exists_congr fun n => and_congr_left' ?_)
  omega

end Digits

section Timestamps

variable {cs : List Char}

def dateClasses : List (Char → Bool) :=
  [between '1' '9', Char.isDigit, Char.isDigit, Char.isDigit] ++ (· == '-') ::
    ([between '0' '1', Char.isDigit] ++ (· == '-') :: [between '0' '3', Char.isDigit])

def timeClasses : List (Char → Bool) :=
  [between '0' '2', Char.isDigit] ++ (· == ':') :: sixtieths

theorem fits_date :
    fits dateClasses cs = true ↔
      ∃ year month day, (1000 ≤ year ∧ year ≤ 9999) ∧ month < 20 ∧ day < 40 ∧
        cs = paddedDigits 4 year ++ '-' :: (paddedDigits 2 month ++ '-' :: paddedDigits 2 day) := by
  have hmonth (cs : List Char) : fits [between '0' '1', Char.isDigit] cs = true ↔
      ∃ n, n < 20 ∧ cs = paddedDigits 2 n := fits_twoDigits (by decide : 1 < 10) rfl
  have hday (cs : List Char) : fits [between '0' '3', Char.isDigit] cs = true ↔
      ∃ n, n < 40 ∧ cs = paddedDigits 2 n := fits_twoDigits (by decide : 3 < 10) rfl
  simp only [dateClasses, fits_separated, fits_year, hmonth, hday]
  constructor
  · rintro ⟨_, _, rfl, ⟨year, hyear, rfl⟩, _, _, rfl, ⟨month, hmonth, rfl⟩, day, hday, rfl⟩
    exact ⟨year, month, day, hyear, hmonth, hday, rfl⟩
  · rintro ⟨year, month, day, hyear, hmonth, hday, rfl⟩
    exact ⟨_, _, rfl, ⟨year, hyear, rfl⟩, _, _, rfl, ⟨month, hmonth, rfl⟩, day, hday, rfl⟩

theorem fits_sixtieths : fits sixtieths cs = true ↔ ∃ n, n < 60 ∧ cs = paddedDigits 2 n :=
  fits_twoDigits (by decide : 5 < 10) rfl

theorem fits_time :
    fits timeClasses cs = true ↔
      ∃ hour minute, hour < 30 ∧ minute < 60 ∧
        cs = paddedDigits 2 hour ++ ':' :: paddedDigits 2 minute := by
  have hhour (cs : List Char) : fits [between '0' '2', Char.isDigit] cs = true ↔
      ∃ n, n < 30 ∧ cs = paddedDigits 2 n := fits_twoDigits (by decide : 2 < 10) rfl
  simp only [timeClasses, fits_separated, hhour, fits_sixtieths]
  constructor
  · rintro ⟨_, _, rfl, ⟨hour, hhour, rfl⟩, minute, hminute, rfl⟩
    exact ⟨hour, minute, hhour, hminute, rfl⟩
  · rintro ⟨hour, minute, hhour, hminute, rfl⟩
    exact ⟨_, _, rfl, ⟨hour, hhour, rfl⟩, minute, hminute, rfl⟩

theorem timestampClasses_eq :
    timestampClasses = dateClasses ++ (fun c => c == 'T' || c == ' ') :: timeClasses := rfl

/-- A date and a time of day with a mark between them, and perhaps seconds. -/
theorem looksLikeTimestamp_iff_fits :
    looksLikeTimestamp cs = true ↔
      ∃ date mark time, cs = date ++ mark :: time ∧ fits dateClasses date = true ∧ IsMark mark ∧
        (fits timeClasses time = true ∨
          fits (timeClasses ++ (· == ':') :: sixtieths) time = true) := by
  have hparts (classes : List (Char → Bool)) :
      fits (dateClasses ++ (fun c => c == 'T' || c == ' ') :: classes) cs = true ↔
        ∃ date mark time, cs = date ++ mark :: time ∧ fits dateClasses date = true ∧ IsMark mark ∧
          fits classes time = true := by
    simp only [fits_around, Bool.or_eq_true, beq_iff_eq, IsMark]
  rw [looksLikeTimestamp, Bool.or_eq_true, timestampClasses_eq, List.append_assoc,
    List.cons_append, hparts, hparts]
  simp only [← exists_or, ← and_or_left]

/-- What looks like a date-time is the text of fields that are bounded digit by digit. -/
theorem looksLikeTimestamp_iff :
    looksLikeTimestamp cs = true ↔
      ∃ (t : DateTime) (mark : Char) (withSeconds : Bool), t.InPattern ∧ IsMark mark ∧
        (withSeconds = false → t.second = 0) ∧ cs = t.chars mark withSeconds := by
  rw [looksLikeTimestamp_iff_fits]
  constructor
  · rintro ⟨date, mark, time, rfl, hdate, hmark, htime⟩
    obtain ⟨year, month, day, hyear, hmonth, hday, rfl⟩ := fits_date.mp hdate
    rcases htime with hshort | hlong
    · obtain ⟨hour, minute, hhour, hminute, rfl⟩ := fits_time.mp hshort
      have h : DateTime.InPattern ⟨⟨year, month, day⟩, hour, minute, 0⟩ :=
        ⟨by dsimp only; omega, hmonth, hday, hhour, hminute, Nat.zero_lt_succ _⟩
      refine ⟨_, mark, false, h, hmark, fun _ => rfl, ?_⟩
      rw [DateTime.chars, DateTime.dateChars, h.yearChars_eq, DateTime.timeChars_false]
      rfl
    · obtain ⟨_, _, rfl, hfront, hback⟩ := fits_separated.mp hlong
      obtain ⟨hour, minute, hhour, hminute, rfl⟩ := fits_time.mp hfront
      obtain ⟨second, hsecond, rfl⟩ := fits_sixtieths.mp hback
      have h : DateTime.InPattern ⟨⟨year, month, day⟩, hour, minute, second⟩ :=
        ⟨by dsimp only; omega, hmonth, hday, hhour, hminute, hsecond⟩
      refine ⟨_, mark, true, h, hmark, fun htrue => Bool.noConfusion htrue, ?_⟩
      rw [DateTime.chars, DateTime.dateChars, h.yearChars_eq, DateTime.timeChars_true,
        DateTime.timeChars_false]
      rfl
  · rintro ⟨t, mark, withSeconds, h, hmark, -, rfl⟩
    have hdate : fits dateClasses t.dateChars = true := by
      rw [DateTime.dateChars, h.yearChars_eq]
      have hyear := h.year
      exact fits_date.mpr ⟨_, _, _, by omega, h.month, h.day, rfl⟩
    have hshort : fits timeClasses (t.timeChars false) = true := by
      rw [DateTime.timeChars_false]
      exact fits_time.mpr ⟨_, _, h.hour, h.minute, rfl⟩
    refine ⟨t.dateChars, mark, t.timeChars withSeconds, rfl, hdate, hmark, ?_⟩
    cases withSeconds with
    | false => exact .inl hshort
    | true =>
      rw [DateTime.timeChars_true]
      have hseconds := fits_sixtieths.mpr ⟨_, h.second, rfl⟩
      exact .inr (fits_separated.mpr ⟨_, _, rfl, hshort, hseconds⟩)

end Timestamps

section Durations

/-- The form of durations: hours of any length, a colon and minutes below sixty, behind a sign or
none. -/
inductive DurationForm : List Char → Prop where
  | mk {sign hours : List Char} {k : ℤ} {minutes : ℕ} (hsign : Sign sign k) (hne : hours ≠ [])
      (hhours : Digits hours) (hminutes : minutes < 60) :
      DurationForm (sign ++ (hours ++ ':' :: paddedDigits 2 minutes))

theorem looksLikeDuration_iff {cs : List Char} : looksLikeDuration cs = true ↔ DurationForm cs := by
  constructor
  · intro h
    rw [looksLikeDuration, Bool.and_eq_true] at h
    obtain ⟨hhours, hrest⟩ := h
    obtain ⟨sign, k, hsign, hcs, -⟩ := Decimal.exists_sign cs
    generalize (Text.splitSign cs).2 = unsigned at hhours hrest hcs
    obtain ⟨c, back, hback, hc, hfits⟩ := fits_cons.mp hrest
    obtain rfl := eq_of_beq hc
    obtain ⟨minutes, hminutes, rfl⟩ := fits_sixtieths.mp hfits
    rw [hcs, ← unsigned.takeWhile_append_dropWhile (p := Char.isDigit), hback]
    refine .mk hsign ?_ (List.all_eq_true.mp List.all_takeWhile) hminutes
    simpa using hhours
  · rintro @⟨sign, hours, k, minutes, hsign, hne, hhours, hminutes⟩
    have hcolon : ∀ c ∈ (':' :: paddedDigits 2 minutes).head?, c.isDigit = false := by
      intro c hc
      obtain rfl := Option.some.inj hc
      rfl
    have hnoSign : ∀ c ∈ (hours ++ ':' :: paddedDigits 2 minutes).head?, c ≠ '-' ∧ c ≠ '+' := by
      rw [List.head?_append_of_ne_nil _ hne]
      exact hhours.no_sign
    rw [looksLikeDuration, hsign.splitSign_append hnoSign]
    dsimp only
    rw [Text.takeWhile_append hhours hcolon, Text.dropWhile_append hhours hcolon, Bool.and_eq_true]
    constructor
    · simpa using hne
    · exact fits_cons.mpr ⟨_, _, rfl, beq_self_eq_true ':', fits_sixtieths.mpr ⟨_, hminutes, rfl⟩⟩

end Durations

end TableCalc.Cell
