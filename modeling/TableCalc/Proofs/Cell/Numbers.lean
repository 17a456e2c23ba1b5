import TableCalc.Proofs.Calendar.Durations
import TableCalc.Proofs.Cell.Patterns
import TableCalc.Proofs.Decimal.Canonical

/-!
The number that a cell counts as. The text of a decimal has neither the mark of a date-time nor the
colon of a duration, so it is read as a decimal; and as no cell counts as a number of more digits than
are read, each number that a cell counts as is found again in the cell that it is written to.
-/

namespace TableCalc.Cell

open Calendar (DateTime Timestamp IsMark)

section Kinds

variable {cs : List Char} {s : String} {x : Decimal}

theorem looksLikeTimestamp_eq_false (h : ∀ c ∈ cs, ¬ IsMark c) :
    looksLikeTimestamp cs = false := by
  rw [← Bool.not_eq_true]
  intro hlooks
  obtain ⟨t, mark, withSeconds, -, hmark, -, rfl⟩ := looksLikeTimestamp_iff.mp hlooks
  exact h mark (by simp [DateTime.chars]) hmark

theorem looksLikeDuration_eq_false (h : ':' ∉ cs) : looksLikeDuration cs = false := by
  rw [← Bool.not_eq_true, looksLikeDuration_iff]
  rintro @⟨sign, hours, k, minutes, -, -, -, -⟩
  exact h (by simp)

theorem kind_eq_timestamp_iff :
    kind s = .timestamp ↔ looksLikeTimestamp (Text.trim s.toList) = true := by
  unfold kind
  dsimp only
  split
  · next hblank =>
    rw [List.isEmpty_iff.mp hblank]
    simp [looksLikeTimestamp, fits, timestampClasses]
  · split
    · next h => simp [h]
    · next h =>
      split
      · simp [h]
      · split <;> simp [h]

theorem kind_eq_duration (hmark : looksLikeTimestamp (Text.trim s.toList) = false)
    (hcolon : looksLikeDuration (Text.trim s.toList) = true) : kind s = .duration := by
  have hne : (Text.trim s.toList).isEmpty = false := by
    rw [← Bool.not_eq_true, List.isEmpty_iff]
    intro hnil
    rw [hnil] at hcolon
    cases hcolon
  simp [kind, hne, hmark, hcolon]

/-- A decimal text has neither the mark of a date-time nor the colon of a duration. -/
theorem kind_eq_decimal (h : Decimal.read s = .ok x) : kind s = .decimal := by
  obtain ⟨q, hq⟩ := Decimal.number_of_read h
  have hmark : looksLikeTimestamp (Text.trim s.toList) = false := by
    apply looksLikeTimestamp_eq_false
    rintro _ hc (rfl | rfl)
    · exact absurd (hq.mem hc) (by decide)
    · exact absurd (hq.mem hc) (by decide)
  have hcolon : looksLikeDuration (Text.trim s.toList) = false := by
    apply looksLikeDuration_eq_false
    intro hc
    exact absurd (hq.mem hc) (by decide)
  simp [kind, hq.ne_nil, hmark, hcolon, h]

theorem number_eq_of_read (h : Decimal.read s = .ok x) : number s = x := by
  rw [number, kind_eq_decimal h]
  dsimp only
  rw [h]
  rfl

end Kinds

section Canonical

variable (x : Decimal)

theorem kind_canonical : kind x.canonical = .decimal := kind_eq_decimal x.read_canonical_rounded

/-- The text of a number counts as the number, rounded as reading does. -/
theorem number_canonical_rounded :
    number x.canonical = x.roundToDigits Decimal.workingDigits :=
  number_eq_of_read x.read_canonical_rounded

/-- A number is found again in the cell that it is written to. -/
theorem number_canonical (h : x.precision ≤ Decimal.workingDigits) : number x.canonical = x := by
  rw [number_canonical_rounded, Decimal.roundToDigits_eq_self h]

end Canonical

section Precision

theorem precision_ofInt_le {n : Int} (hn : n.natAbs ≤ 10 ^ Decimal.workingDigits) :
    (Decimal.ofInt n).precision ≤ Decimal.workingDigits :=
  Decimal.precision_scaled_le (by decide) hn

theorem precision_ofInt_word_le {n : Int} (hn : Text.isInt64 n = true) :
    (Decimal.ofInt n).precision ≤ Decimal.workingDigits := by
  refine precision_ofInt_le (Nat.le_trans ?_ (by decide : 10 ^ 19 ≤ 10 ^ Decimal.workingDigits))
  rw [Word.isInt64_iff] at hn
  omega

/-- A text of a date-time is read as the instant of its fields. -/
theorem read_of_kind_eq_timestamp {s : String} (hkind : kind s = .timestamp) :
    ∃ (t : DateTime) (mark : Char) (withSeconds : Bool), t.InPattern ∧ IsMark mark ∧
      (withSeconds = false → t.second = 0) ∧
      Text.trim s.toList = t.chars mark withSeconds ∧
      Timestamp.read s = Timestamp.ofDateTime t := by
  obtain ⟨t, mark, withSeconds, hpattern, hmark, hsecond, htext⟩ :=
    looksLikeTimestamp_iff.mp (kind_eq_timestamp_iff.mp hkind)
  exact ⟨t, mark, withSeconds, hpattern, hmark, hsecond, htext,
    Timestamp.read_eq_ofDateTime hpattern hmark hsecond htext⟩

/-- No cell counts as a number of more digits than are read. -/
theorem precision_number_le (s : String) : (number s).precision ≤ Decimal.workingDigits := by
  have hzero : (0 : Decimal).precision ≤ Decimal.workingDigits := by decide
  unfold number
  cases hkind : kind s with
  | blank | word => exact hzero
  | timestamp =>
    dsimp only
    cases hread : Timestamp.read s with
    | error fault => exact hzero
    | ok instant =>
      obtain ⟨t, mark, withSeconds, -, -, -, -, heq⟩ := read_of_kind_eq_timestamp hkind
      exact precision_ofInt_word_le (Timestamp.isInt64_of_ofDateTime (heq ▸ hread))
  | duration =>
    dsimp only
    cases hread : Calendar.readDuration s with
    | error fault => exact hzero
    | ok millis =>
      exact precision_ofInt_le (Nat.le_trans (Calendar.natAbs_readDuration_le hread) (by decide))
  | decimal =>
    dsimp only
    cases hread : Decimal.read s with
    | error fault => exact hzero
    | ok x => exact Decimal.precision_read_le hread

end Precision

end TableCalc.Cell
