import TableCalc.Proofs.Cell.Numbers

/-!
The texts of cells that count as numbers. A text counts as the number that it denotes if it has the
form of decimals, which shares no text with the forms of date-times and durations; and a text of none of
these forms counts as zero.
-/

namespace TableCalc.Cell

open Calendar (DateTime IsMark)
open Decimal (nearest number_of_read)
open Decimal.Grammar (Digits Mantissa Exponent Number)

/-- The form of date-times: a date, a mark and a time of day with seconds or without, each field
bounded digit by digit. -/
def TimestampForm (cs : List Char) : Prop :=
  ∃ (t : DateTime) (mark : Char) (withSeconds : Bool), t.InPattern ∧ IsMark mark ∧
    (withSeconds = false → t.second = 0) ∧ cs = t.chars mark withSeconds

section Numbers

variable {s : String}

theorem number_eq_zero (hmark : looksLikeTimestamp (Text.trim s.toList) = false)
    (hcolon : looksLikeDuration (Text.trim s.toList) = false)
    (hread : ∀ x, Decimal.read s ≠ .ok x) : number s = 0 := by
  cases h : Decimal.read s with
  | ok x => exact absurd h (hread x)
  | error fault =>
    by_cases hblank : (Text.trim s.toList).isEmpty
    · simp [number, kind, hblank]
    · simp [number, kind, hblank, hmark, hcolon, h]

end Numbers

/-- Decimals are read exactly from the texts of their form, blanks around them aside: an optional sign,
digits with an optional point among them, and an optional exponent in bounds. What is read is the number
that the text denotes, rounded to fifty significant digits with halves away from zero, and a cell with
the text counts as it. A text that has neither this form nor that of date-times or durations counts as
zero. -/
theorem decimals_read_exactly (s : String) :
    let text := Text.trim s.toList
    ((∃ x, Decimal.read s = .ok x) ↔ ∃ q, Number text q) ∧
    (∀ x q, Decimal.read s = .ok x → Number text q → x.value = nearest 50 q ∧ number s = x) ∧
    (¬ TimestampForm text → ¬ DurationForm text → (∀ q, ¬ Number text q) → number s = 0) := by
  refine ⟨⟨?_, ?_⟩, ?_, ?_⟩
  · rintro ⟨x, hx⟩
    exact number_of_read hx
  · rintro ⟨q, hq⟩
    obtain ⟨x, hx, -⟩ := hq.read
    exact ⟨x, hx⟩
  · intro x q hx hq
    obtain ⟨y, hy, hvalue⟩ := hq.read
    obtain rfl := Except.ok.inj (hx.symm.trans hy)
    exact ⟨hvalue, number_eq_of_read hx⟩
  · intro htimestamp hduration hnumber
    apply number_eq_zero
    · rwa [← Bool.not_eq_true, looksLikeTimestamp_iff]
    · rwa [← Bool.not_eq_true, looksLikeDuration_iff]
    · intro x hx
      obtain ⟨q, hq⟩ := number_of_read hx
      exact hnumber q hq

/-- Zeros in front, a point, an exponent below zero and blanks around them; and a text with two
points. -/
theorem decimals_read_exactly_signed :
    Decimal.read " +007.250E-1 " = .ok (.scaled 725 (-3)) ∧
    (Decimal.scaled 725 (-3)).value = nearest 50 (1 * (7 + 250 / 10 ^ 3) * 10 ^ (-1 : ℤ)) ∧
    number " +007.250E-1 " = .scaled 725 (-3) ∧ number "1.2.3" = 0 := by
  have hread : Decimal.read " +007.250E-1 " = .ok (.scaled 725 (-3)) := by decide +kernel
  have hform : Number (Text.trim " +007.250E-1 ".toList)
      ((1 : ℤ) * ((7 : ℕ) + (250 : ℕ) / 10 ^ 3) * 10 ^ (-1 * (1 : ℕ) : ℤ)) :=
    .mk .plus (@Mantissa.pointed ['0', '0', '7'] ['2', '5', '0'] (.inl (by simp)) (by simp [Digits])
      (by simp [Digits])) (@Exponent.written 'E' ['-'] ['1'] (-1) (.inr rfl) .minus (by simp)
        (by simp [Digits])) (by norm_num)
  obtain ⟨hvalue, hnumber⟩ := (decimals_read_exactly " +007.250E-1 ").2.1 _ _ hread hform
  obtain ⟨hreads, -, hzero⟩ := decimals_read_exactly "1.2.3"
  have hfault : Decimal.read "1.2.3" = .error (.malformed "1.2.3") := rfl
  refine ⟨hread, ?_, hnumber, hzero ?_ ?_ ?_⟩
  · rw [hvalue]
    norm_num
  · rw [TimestampForm, ← looksLikeTimestamp_iff]
    decide
  · rw [← looksLikeDuration_iff]
    decide
  · intro q hq
    obtain ⟨x, hx⟩ := hreads.mpr ⟨q, hq⟩
    rw [hfault] at hx
    cases hx

end TableCalc.Cell
