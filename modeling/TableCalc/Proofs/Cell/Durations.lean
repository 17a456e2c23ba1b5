import TableCalc.Display
import TableCalc.Proofs.Cell.Numbers
import TableCalc.Proofs.Decimal.Integers

/-!
Cells that hold durations. What is written for a number of milliseconds is taken for a duration and
read back as its whole minutes, as long as the hours that were written are half a word; from there on
it is written as the same text each time.
-/

namespace TableCalc.Cell

open Calendar (durationChars writeDuration millisPerHour millisPerMinute)
open Decimal.Grammar (Digits)
open Text (paddedDigits isDigit_of_mem_paddedDigits)

variable {millis : Int} {text : String}

theorem trim_writeDuration (millis : Int) :
    Text.trim (writeDuration millis).toList = durationChars millis := by
  rw [writeDuration, String.toList_ofList]
  exact Text.trim_eq_self (Calendar.isTrimmed_durationChars millis)

theorem looksLikeDuration_durationChars (millis : Int) :
    looksLikeDuration (durationChars millis) = true := by
  have hhours : Digits (paddedDigits 2 ((millis.tdiv millisPerMinute).natAbs / 60)) :=
    fun _ => isDigit_of_mem_paddedDigits
  have hminutes : (millis.tdiv millisPerMinute).natAbs % 60 < 60 := Nat.mod_lt _ (by decide)
  rw [looksLikeDuration_iff, durationChars, List.append_assoc]
  by_cases hneg : millis.tdiv millisPerMinute < 0
  · rw [if_pos hneg]
    exact .mk .minus (Text.paddedDigits_ne_nil _ _) hhours hminutes
  · rw [if_neg hneg]
    exact .mk .none (Text.paddedDigits_ne_nil _ _) hhours hminutes

theorem kind_writeDuration (millis : Int) : kind (writeDuration millis) = .duration := by
  refine kind_eq_duration ?_ ?_
  · rw [trim_writeDuration]
    refine looksLikeTimestamp_eq_false ?_
    rintro _ hc (rfl | rfl)
    · exact absurd (Calendar.mem_durationChars hc) (by decide)
    · exact absurd (Calendar.mem_durationChars hc) (by decide)
  · rw [trim_writeDuration]
    exact looksLikeDuration_durationChars millis

/-- A duration counts as its whole minutes, or as nothing if its hours are too large. -/
theorem number_writeDuration (millis : Int) :
    number (writeDuration millis) =
      if (millis.tdiv millisPerHour).natAbs ≤ Text.maxHalfWord then
        .ofInt (millis.tdiv millisPerMinute * millisPerMinute)
      else 0 := by
  rw [number, kind_writeDuration]
  dsimp only
  rw [Calendar.readDuration_durationChars (trim_writeDuration millis)]
  split <;> rfl

theorem write_hoursMinutes (h : (number text).trunc.toInt64? = some millis) :
    Display.write .hoursMinutes text = writeDuration millis := by
  unfold Display.write
  dsimp only
  rw [h]

theorem write_hoursMinutes_canonical (h : (number text).trunc.toInt64? = none) :
    Display.write .hoursMinutes text = (number text).canonical := by
  unfold Display.write
  dsimp only
  rw [h]

theorem isInt64_of_toInt64? {x : Decimal} (h : x.toInt64? = some millis) :
    Text.isInt64 millis = true :=
  (Decimal.toInt64?_eq_some_iff.mp h).1

/-- Whole minutes are written as the same text as the milliseconds that they were taken from. -/
theorem writeDuration_minutes (millis : Int) :
    writeDuration (millis.tdiv millisPerMinute * millisPerMinute) = writeDuration millis := by
  rw [writeDuration, writeDuration, durationChars, durationChars,
    Int.mul_tdiv_cancel _ (by decide : millisPerMinute ≠ 0)]

theorem isInt64_minutes (h : Text.isInt64 millis = true) :
    Text.isInt64 (millis.tdiv millisPerMinute * millisPerMinute) = true := by
  rw [Word.isInt64_iff] at *
  rcases Int.le_total 0 millis with hnonneg | hneg
  · rw [Int.tdiv_eq_ediv_of_nonneg hnonneg]
    unfold millisPerMinute Calendar.millisPerSecond
    omega
  · obtain ⟨m, rfl⟩ : ∃ m, millis = -m := ⟨-millis, (Int.neg_neg millis).symm⟩
    rw [Int.neg_tdiv, Int.tdiv_eq_ediv_of_nonneg (by omega)]
    unfold millisPerMinute Calendar.millisPerSecond
    omega

/-- Durations are read back. What is written for a number of milliseconds is taken for a duration and,
if its hours are half a word, counts as the milliseconds without the part of a minute, dropped toward
zero; larger hours are written but count as nothing. A cell that is written as hours and minutes keeps
its duration, if the hours are not too large, or its number, if that is no number of milliseconds in a
word; and when it is written once more, its text stays the same. -/
theorem durations_read_back (millis : Int) (text : String) :
    kind (writeDuration millis) = .duration ∧
    ((millis.tdiv 3600000).natAbs ≤ Text.maxHalfWord →
      number (writeDuration millis) = .ofInt (millis.tdiv 60000 * 60000)) ∧
    (Text.maxHalfWord < (millis.tdiv 3600000).natAbs → number (writeDuration millis) = 0) ∧
    let written := Display.write .hoursMinutes text
    ((number text).trunc.toInt64? = some millis → written = writeDuration millis ∧
      ((millis.tdiv 3600000).natAbs ≤ Text.maxHalfWord →
        number written = .ofInt (millis.tdiv 60000 * 60000) ∧
        Display.write .hoursMinutes written = written)) ∧
    ((number text).trunc.toInt64? = none →
      number written = number text ∧ Display.write .hoursMinutes written = written) := by
  have hread (hhours : (millis.tdiv 3600000).natAbs ≤ Text.maxHalfWord) :
      number (writeDuration millis) = .ofInt (millis.tdiv 60000 * 60000) :=
    (number_writeDuration millis).trans (if_pos hhours)
  refine ⟨kind_writeDuration millis, hread, fun hhours => ?_, fun hmillis => ?_, fun hnone => ?_⟩
  · exact (number_writeDuration millis).trans (if_neg (Nat.not_le.mpr hhours))
  · rw [write_hoursMinutes hmillis]
    refine ⟨rfl, fun hhours => ⟨hread hhours, ?_⟩⟩
    have hagain : (number (writeDuration millis)).trunc.toInt64? =
        some (millis.tdiv millisPerMinute * millisPerMinute) := by
      rw [hread hhours, Decimal.trunc_ofInt]
      exact Decimal.toInt64?_ofInt (isInt64_minutes (isInt64_of_toInt64? hmillis))
    rw [write_hoursMinutes hagain, writeDuration_minutes]
  · rw [write_hoursMinutes_canonical hnone]
    have hnumber := number_canonical _ (precision_number_le text)
    refine ⟨hnumber, ?_⟩
    rw [write_hoursMinutes_canonical (by rw [hnumber, hnone]), hnumber]

/-- Hours that do not fit half a word, though their milliseconds fit a word: the text that is written
for them counts as nothing, and once more it is written as none. -/
theorem durations_largeHours :
    Text.isInt64 15461882265600000 = true ∧
    writeDuration 15461882265600000 = "4294967296:00" ∧
    kind "4294967296:00" = .duration ∧ number "4294967296:00" = 0 ∧
    (0 : Decimal) ≠ .ofInt ((15461882265600000 : Int).tdiv 60000 * 60000) ∧
    Display.write .hoursMinutes "4294967296:00" = "00:00" := by
  have htext : writeDuration 15461882265600000 = "4294967296:00" := by decide
  have hkind := kind_writeDuration 15461882265600000
  have hnumber := number_writeDuration 15461882265600000
  rw [if_neg (by decide), htext] at hnumber
  rw [htext] at hkind
  have hzero : (0 : Decimal) = .ofInt 0 := (Decimal.scaled_zero 0).symm
  refine ⟨by decide, htext, hkind, hnumber, ?_, ?_⟩
  · rw [hzero]
    intro heq
    exact absurd (Decimal.ofInt_injective heq) (by decide)
  · have hmillis : (number "4294967296:00").trunc.toInt64? = some 0 := by
      rw [hnumber, hzero, Decimal.trunc_ofInt]
      exact Decimal.toInt64?_ofInt (by decide)
    rw [write_hoursMinutes hmillis]
    decide

/-- Less than two minutes below zero. -/
theorem durations_read_back_negative :
    let written := Display.write .hoursMinutes (Decimal.ofInt (-119999)).canonical
    kind (writeDuration (-119999)) = .duration ∧
    number (writeDuration (-119999)) = .ofInt (-60000) ∧
    number written = .ofInt (-60000) ∧ Display.write .hoursMinutes written = written := by
  have hfits : Text.isInt64 (-119999) = true := by decide
  have hmillis : (number (Decimal.ofInt (-119999)).canonical).trunc.toInt64? = some (-119999) := by
    rw [number_canonical _ (precision_ofInt_word_le hfits), Decimal.trunc_ofInt,
      Decimal.toInt64?_ofInt hfits]
  obtain ⟨hkind, hnumber, -, hwritten, -⟩ := durations_read_back (-119999) _
  obtain ⟨hkept, hagain⟩ := (hwritten hmillis).2 (by decide)
  exact ⟨hkind, hnumber (by decide), hkept, hagain⟩

end TableCalc.Cell
