import Mathlib
import TableCalc.Evaluation
import TableCalc.Proofs.Cell.Canonical
import TableCalc.Proofs.Decimal.Division
import TableCalc.Proofs.Decimal.Sums

/-!
Arithmetic on cells. The result of an operation is written to a cell as the text of a decimal, and what
the text denotes is the exact result as far as fifty digits go. A product that needs no more digits is
found again in its cell, so division takes it apart.
-/

namespace TableCalc

/-- The result of an operation on rational numbers. -/
def Operation.exact : Operation → ℚ → ℚ → ℚ
  | .add => (· + ·)
  | .subtract => (· - ·)
  | .multiply => (· * ·)
  | .divide => (· / ·)

namespace Cell

open Decimal (AgreesTo HasDigits denoted denoted_canonical)

variable {digits : ℕ} {a b : String} {z : Decimal}

/-- An operation on two cells writes one number. -/
theorem apply_single {op : Operation} (h : op.combine digits (number a) (number b) = .ok z) :
    op.apply digits (.single a) (.single b) = .ok (.single z.canonical) := by
  have hcell (text : String) : (Grid.single text).isCell = true := rfl
  have hscalar : (Grid.single a).scalar = number a := rfl
  rw [Operation.apply, hcell, hcell, hscalar]
  simp only [Bool.not_true, Bool.and_false, Bool.false_eq_true, if_false, if_true, Grid.mapCells,
    Grid.single, List.mapM_cons, List.mapM_nil, h]
  rfl

/-- What is written for an operation denotes the exact result as far as the working digits go. -/
theorem apply_single_agreesTo {op : Operation} (hop : op ≠ .divide) (digits : ℕ) (a b : String) :
    ∃ text, op.apply digits (.single a) (.single b) = .ok (.single text) ∧
      AgreesTo 50 (op.exact (number a).value (number b).value) (denoted text.toList) := by
  cases op with
  | add =>
    refine ⟨_, apply_single rfl, ?_⟩
    rw [denoted_canonical]
    exact Decimal.agreesTo_add _ _
  | subtract =>
    refine ⟨_, apply_single rfl, ?_⟩
    rw [denoted_canonical]
    exact Decimal.agreesTo_sub _ _
  | multiply =>
    refine ⟨_, apply_single rfl, ?_⟩
    rw [denoted_canonical]
    exact Decimal.agreesTo_mul _ _
  | divide => exact absurd rfl hop

theorem apply_subtract_swap (digits : ℕ) (a b : String) :
    ∃ forth back, Operation.subtract.apply digits (.single a) (.single b) = .ok (.single forth) ∧
      Operation.subtract.apply digits (.single b) (.single a) = .ok (.single back) ∧
      denoted forth.toList = -denoted back.toList := by
  refine ⟨_, _, apply_single rfl, apply_single rfl, ?_⟩
  rw [denoted_canonical, denoted_canonical, ← Decimal.value_neg, Decimal.neg_sub]

/-- A product of at most fifty digits, divided by one of its factors, gives the other factor. -/
theorem apply_divide_product (hproduct : HasDigits 50 ((number a).value * (number b).value))
    (hzero : (number b).value ≠ 0) (hpos : 1 ≤ digits) (hmost : digits ≤ 50)
    (hdigits : HasDigits digits (number a).value) :
    ∃ product quotient,
      Operation.multiply.apply digits (.single a) (.single b) = .ok (.single product) ∧
      Operation.divide.apply digits (.single product) (.single b) = .ok (.single quotient) ∧
      denoted quotient.toList = (number a).value := by
  have hvalue := (Decimal.agreesTo_mul (number a) (number b)).exact hproduct
  have hcell : number (number a * number b).canonical = number a * number b := by
    rw [← hvalue] at hproduct
    exact number_canonical _ ((Decimal.hasDigits_value_iff (by decide)).mp hproduct)
  have hback : (number a * number b).value / (number b).value = (number a).value := by
    rw [hvalue, mul_div_cancel_right₀ _ hzero]
  obtain ⟨z, hz, hquotient⟩ := Decimal.divideTo_exact (x := number a * number b)
    (Decimal.value_eq_zero_iff.not.mp hzero) hpos hmost (hback.symm ▸ hdigits)
  refine ⟨_, z.canonical, apply_single rfl, apply_single ?_, ?_⟩
  · rw [hcell, Operation.combine, hz]
    rfl
  · rw [denoted_canonical, hquotient, hback]

/-- Arithmetic on cells is exact while it fits. What a sum, a difference or a product of two cells is
written as denotes the exact result if this has at most fifty significant digits, and otherwise differs
from it by at most half a unit of its fiftieth one; the differences of two cells denote numbers that are
the negatives of each other; and a product that has at most fifty digits gives its first factor again
when it is divided by the second one, if the first has no more digits than quotients keep. -/
theorem arithmetic_exact_while_it_fits (digits : ℕ) (a b : String) :
    (∀ op : Operation, op ≠ .divide →
      ∃ text, op.apply digits (.single a) (.single b) = .ok (.single text) ∧
        (HasDigits 50 (op.exact (number a).value (number b).value) →
          denoted text.toList = op.exact (number a).value (number b).value) ∧
        |denoted text.toList - op.exact (number a).value (number b).value| ≤
          10 ^ Decimal.digitPlace 50 (op.exact (number a).value (number b).value) / 2) ∧
    (∃ forth back, Operation.subtract.apply digits (.single a) (.single b) = .ok (.single forth) ∧
      Operation.subtract.apply digits (.single b) (.single a) = .ok (.single back) ∧
      denoted forth.toList = -denoted back.toList) ∧
    (HasDigits 50 ((number a).value * (number b).value) → (number b).value ≠ 0 →
      1 ≤ digits → digits ≤ 50 → HasDigits digits (number a).value →
      ∃ product quotient,
        Operation.multiply.apply digits (.single a) (.single b) = .ok (.single product) ∧
        Operation.divide.apply digits (.single product) (.single b) = .ok (.single quotient) ∧
        denoted quotient.toList = (number a).value) := by
  refine ⟨fun op hop => ?_, apply_subtract_swap digits a b, apply_divide_product⟩
  obtain ⟨text, happly, hagrees⟩ := apply_single_agreesTo hop digits a b
  exact ⟨text, happly, hagrees.exact, hagrees.near⟩

/-- A product of exactly fifty digits. -/
theorem arithmetic_exact_while_it_fits_fifty :
    let a := "9999999999999999999999999"
    let b := "-0.9999999999999999999999999"
    ∃ product quotient,
      Operation.multiply.apply 25 (.single a) (.single b) = .ok (.single product) ∧
      Operation.divide.apply 25 (.single product) (.single b) = .ok (.single quotient) ∧
      denoted quotient.toList = 9999999999999999999999999 := by
  intro a b
  have hreadLeft : Decimal.read "9999999999999999999999999" =
      .ok (.ofInt 9999999999999999999999999) := by cbv
  have hreadRight : Decimal.read "-0.9999999999999999999999999" =
      .ok (.scaled (-9999999999999999999999999) (-25)) := by cbv
  have hx : (number a).value = 9999999999999999999999999 := by
    rw [show number a = _ from number_eq_of_read hreadLeft, Decimal.value_ofInt, Int.cast_ofNat]
  have hy : (number b).value = -9999999999999999999999999 * 10 ^ (-25 : ℤ) := by
    rw [show number b = _ from number_eq_of_read hreadRight, Decimal.value_scaled, Int.cast_neg,
      Int.cast_ofNat]
  have hproduct : HasDigits 50 ((number a).value * (number b).value) :=
    ⟨-99999999999999999999999980000000000000000000000001, -25, by decide, by
      rw [hx, hy]
      norm_num⟩
  have hdigits : HasDigits 25 (number a).value :=
    ⟨9999999999999999999999999, 0, by decide, by
      rw [hx]
      norm_num⟩
  have hzero : (number b).value ≠ 0 := by
    rw [hy]
    norm_num
  rw [← hx]
  exact (arithmetic_exact_while_it_fits 25 a b).2.2 hproduct hzero (by decide) (by decide) hdigits

end Cell

end TableCalc
