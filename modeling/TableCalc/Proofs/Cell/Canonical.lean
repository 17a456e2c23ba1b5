import TableCalc.Proofs.Cell.Numbers
import TableCalc.Proofs.Decimal.Texts

/-!
Canonical texts in cells. The text of a number has one form, denotes the number and no other one, and
counts as the number again, as far as the digits go that are read.
-/

namespace TableCalc.Cell

open Decimal (IsCanonicalForm denoted nearest HasDigits)

/-- No number is written as zero with a minus. -/
theorem canonical_ne_negativeZero (x : Decimal) : x.canonical ≠ "-0" := by
  intro htext
  have hvalue : x.value = 0 := by
    rw [← x.denoted_canonical, htext]
    decide +kernel
  rw [Decimal.value_eq_zero_iff.mp hvalue] at htext
  exact absurd htext (by decide)

theorem canonical_inj {x y : Decimal} : x.canonical = y.canonical ↔ x = y := by
  refine ⟨fun h => ?_, congrArg _⟩
  rw [← Decimal.value_inj, ← x.denoted_canonical, ← y.denoted_canonical, h]

/-- The canonical text of a number is its one form: digits with no superfluous zero at either end, a
minus just below zero. It denotes the number exactly; numbers are equal, also in their order, just if
their texts are; and a cell with the text is taken for a decimal. The text is read, and counts, as the
nearest number of fifty digits, which is the number itself if it needs no more digits. -/
theorem canonical_faithful (x : Decimal) :
    IsCanonicalForm x.canonical.toList ∧ x.canonical ≠ "-0" ∧
    denoted x.canonical.toList = x.value ∧
    (∀ y : Decimal, (x = y ↔ x.canonical = y.canonical) ∧
      (compare x y = .eq ↔ x.canonical = y.canonical)) ∧
    kind x.canonical = .decimal ∧
    ∃ z, Decimal.read x.canonical = .ok z ∧ number x.canonical = z ∧
      z.value = nearest 50 x.value ∧ (HasDigits 50 x.value → z = x) := by
  refine ⟨x.isCanonicalForm_canonical, canonical_ne_negativeZero x, x.denoted_canonical, fun y => ?_,
    kind_canonical x, _, x.read_canonical_rounded, number_canonical_rounded x,
    x.value_roundToDigits _, fun hdigits => ?_⟩
  · rw [canonical_inj, Decimal.compare_eq_compare_value, compare_eq_iff_eq, Decimal.value_inj]
    exact ⟨Iff.rfl, Iff.rfl⟩
  · exact Decimal.roundToDigits_eq_self ((Decimal.hasDigits_value_iff (by decide)).mp hdigits)

/-- A negative fraction with zeros behind its point. -/
theorem canonical_faithful_fraction :
    (Decimal.scaled (-125) (-6)).canonical = "-0.000125" ∧
    Decimal.read "-0.000125" = .ok (Decimal.scaled (-125) (-6)) := by
  have htext : (Decimal.scaled (-125) (-6)).canonical = "-0.000125" := by decide +kernel
  have hdigits : HasDigits 50 (Decimal.scaled (-125) (-6)).value :=
    ⟨-125, -6, by decide, Decimal.value_scaled _ _⟩
  obtain ⟨-, -, -, -, -, z, hread, -, -, hexact⟩ :=
    canonical_faithful (Decimal.scaled (-125) (-6))
  exact ⟨htext, by rw [← htext, hread, hexact hdigits]⟩

end TableCalc.Cell
