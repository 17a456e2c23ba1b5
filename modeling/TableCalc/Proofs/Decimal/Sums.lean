import TableCalc.Proofs.Decimal.Values

/-!
Sums and products. Whichever rule a sum is rounded by, the place that it is rounded at is not above
that of its fiftieth digit: sums that need no more digits are exact, and all others are within half a
unit of that digit. Far operands of unlike sign are the case that matters, where the place is counted
from the top of the larger one and cancellation may lower the top of the sum by one.
-/

namespace TableCalc.Decimal

/-- Whether `r` is `q` as far as `digits` significant digits go: exactly if they are enough for `q`,
and otherwise within half a unit of the last of them. -/
structure AgreesTo (digits : ℕ) (q r : ℚ) : Prop where
  exact : HasDigits digits q → r = q
  near : |r - q| ≤ 10 ^ digitPlace digits q / 2

theorem AgreesTo.of_nearestAt {digits : ℕ} {q : ℚ} {place : ℤ}
    (hplace : place ≤ digitPlace digits q) : AgreesTo digits q (nearestAt place q) :=
  ⟨fun h => h.nearestAt_eq hplace, abs_nearestAt_sub_le_unit hplace⟩

theorem AgreesTo.refl (digits : ℕ) (q : ℚ) : AgreesTo digits q q := by
  refine ⟨fun _ => rfl, ?_⟩
  have hpos := tenPow_pos (digitPlace digits q)
  rw [sub_self, abs_zero]
  linarith

variable {x y : Decimal}

section Place

/-- The place at which the sum of two numbers of unlike sign is rounded, the number of higher exponent
first. -/
def unlikePlace (coarse fine : Decimal) : ℤ :=
  if coarse.top ≤ fine.top + workingDigits then (exactAdd coarse fine).top - (workingDigits + 1)
  else coarse.top - (workingDigits + 1)

/-- The place at which the sum of two numbers other than zero is rounded. -/
def sumPlace (x y : Decimal) : ℤ :=
  if x.exponent = y.exponent ∨ sameSign x y = true then (exactAdd x y).top - workingDigits
  else if y.exponent < x.exponent then unlikePlace x y
  else unlikePlace y x

protected theorem zero_add (x : Decimal) : 0 + x = x := rfl

protected theorem add_zero (x : Decimal) : x + 0 = x := by
  change add x 0 = x
  rw [add]
  split
  · next h => exact (isZero_iff.mp h).symm
  · rfl

theorem exactAdd_comm (x y : Decimal) : exactAdd x y = exactAdd y x := by
  rw [← value_inj, value_exactAdd, value_exactAdd, add_comm]

theorem sameSign_comm (x y : Decimal) : sameSign x y = sameSign y x := by
  rw [sameSign, sameSign, Bool.beq_comm]

/-- All rules for sums are one: the exact sum is rounded at a place. -/
theorem add_eq (hx : x ≠ 0) (hy : y ≠ 0) :
    x + y = (exactAdd x y).roundToPlace (sumPlace x y) := by
  change add x y = _
  rw [add, if_neg (isZero_iff.not.mpr hx), if_neg (isZero_iff.not.mpr hy), sumPlace]
  simp only [Bool.or_eq_true, beq_iff_eq]
  split
  · rfl
  · split
    · rw [unlikePlace]
      dsimp only
      split <;> rfl
    · rw [unlikePlace, exactAdd_comm y x]
      dsimp only
      split <;> rfl

theorem sumPlace_comm (x y : Decimal) : sumPlace x y = sumPlace y x := by
  rw [sumPlace, sumPlace, exactAdd_comm y x, sameSign_comm y x]
  rcases lt_trichotomy x.exponent y.exponent with hlt | heq | hgt
  · simp only [hlt.ne, hlt.ne', hlt, hlt.not_gt, false_or, if_true, if_false]
  · rw [if_pos (.inl heq), if_pos (.inl heq.symm)]
  · simp only [hgt.ne, hgt.ne', hgt, hgt.not_gt, false_or, if_true, if_false]

/-- A number far below another one takes at most one place from the top of it. -/
theorem top_sub_two_le_log (hx : x ≠ 0) (hy : y ≠ 0) (hfar : y.top + workingDigits < x.top) :
    x.top - 2 ≤ Int.log 10 |x.value + y.value| := by
  have hworking : workingDigits = 50 := rfl
  have hpow := tenPow_pos (x.top - 2)
  have hlarge : 10 * 10 ^ (x.top - 2) ≤ |x.value| := by
    have hstep := tenPow_add 1 (x.top - 2)
    rw [zpow_one] at hstep
    rw [← hstep]
    exact (tenPow_le (by omega)).trans (tenPow_le_abs_value hx)
  have hsmall : |y.value| < 10 ^ (x.top - 2) :=
    (abs_value_lt hy).trans_le (tenPow_le (by omega))
  have hdifference : |x.value| - |y.value| ≤ |x.value + y.value| := by
    have habs := abs_sub_abs_le_abs_sub x.value (-y.value)
    rwa [abs_neg, sub_neg_eq_add] at habs
  have hsum : 10 ^ (x.top - 2) ≤ |x.value + y.value| := by linarith
  exact (tenPow_le_abs_iff (abs_pos.mp (hpow.trans_le hsum))).mp hsum

theorem unlikePlace_le (hx : x ≠ 0) (hy : y ≠ 0) :
    unlikePlace x y ≤ digitPlace workingDigits (x.value + y.value) := by
  rw [unlikePlace]
  split
  · rw [← value_exactAdd, digitPlace_value]
    omega
  · next hfar =>
    have hlog := top_sub_two_le_log hx hy (not_le.mp hfar)
    unfold digitPlace
    omega

/-- The place that a sum is rounded at is not above that of its last working digit. -/
theorem sumPlace_le (hx : x ≠ 0) (hy : y ≠ 0) :
    sumPlace x y ≤ digitPlace workingDigits (x.value + y.value) := by
  rw [sumPlace]
  split
  · rw [← value_exactAdd, digitPlace_value]
  · split
    · exact unlikePlace_le hx hy
    · rw [add_comm x.value]
      exact unlikePlace_le hy hx

end Place

section Results

/-- A sum is exact if it fits the working precision, and otherwise within half a unit of its last
digit. -/
theorem agreesTo_add (x y : Decimal) : AgreesTo workingDigits (x.value + y.value) (x + y).value := by
  rcases eq_or_ne x 0 with rfl | hx
  · rw [Decimal.zero_add, value_zero, zero_add]
    exact .refl _ _
  rcases eq_or_ne y 0 with rfl | hy
  · rw [Decimal.add_zero, value_zero, add_zero]
    exact .refl _ _
  rw [add_eq hx hy, value_roundToPlace, value_exactAdd]
  exact .of_nearestAt (sumPlace_le hx hy)

theorem agreesTo_sub (x y : Decimal) : AgreesTo workingDigits (x.value - y.value) (x - y).value := by
  have h := agreesTo_add x (-y)
  rwa [value_neg, ← sub_eq_add_neg] at h

theorem value_mul (x y : Decimal) : (x * y).value = nearest workingDigits (x.value * y.value) := by
  rw [← value_exactMul, ← value_roundToDigits]
  rfl

theorem agreesTo_mul (x y : Decimal) : AgreesTo workingDigits (x.value * y.value) (x * y).value := by
  rw [value_mul]
  exact .of_nearestAt le_rfl

end Results

section Symmetry

protected theorem add_comm (x y : Decimal) : x + y = y + x := by
  rcases eq_or_ne x 0 with rfl | hx
  · rw [Decimal.zero_add, Decimal.add_zero]
  rcases eq_or_ne y 0 with rfl | hy
  · rw [Decimal.zero_add, Decimal.add_zero]
  rw [add_eq hx hy, add_eq hy hx, exactAdd_comm, sumPlace_comm]

protected theorem mul_comm (x y : Decimal) : x * y = y * x := by
  rw [← value_inj, value_mul, value_mul, mul_comm x.value]

theorem neg_eq_zero_iff : -x = 0 ↔ x = 0 := by
  rw [← value_eq_zero_iff, value_neg, neg_eq_zero, value_eq_zero_iff]

theorem exactAdd_neg (x y : Decimal) : exactAdd (-x) (-y) = -exactAdd x y := by
  rw [← value_inj, value_exactAdd, value_neg, value_neg, value_neg, value_exactAdd, neg_add]

theorem top_neg (x : Decimal) : (-x).top = x.top := by
  change x.exponent + digitCount (-x.significand).natAbs = _
  rw [Int.natAbs_neg]
  rfl

theorem sameSign_neg (hx : x ≠ 0) (hy : y ≠ 0) : sameSign (-x) (-y) = sameSign x y := by
  have hflip {z : Decimal} (hz : z ≠ 0) :
      decide (0 < (-z).significand) = !decide (0 < z.significand) := by
    have hne := significand_ne_zero hz
    change decide (0 < -z.significand) = _
    rw [← decide_not, decide_eq_decide]
    omega
  rw [sameSign, sameSign, hflip hx, hflip hy]
  cases decide (0 < x.significand) <;> cases decide (0 < y.significand) <;> rfl

theorem unlikePlace_neg (x y : Decimal) : unlikePlace (-x) (-y) = unlikePlace x y := by
  rw [unlikePlace, unlikePlace, exactAdd_neg, top_neg, top_neg, top_neg]

theorem sumPlace_neg (hx : x ≠ 0) (hy : y ≠ 0) : sumPlace (-x) (-y) = sumPlace x y := by
  rw [sumPlace, sumPlace, exactAdd_neg, top_neg, sameSign_neg hx hy, unlikePlace_neg,
    unlikePlace_neg]
  rfl

theorem roundToPlace_neg (x : Decimal) (place : ℤ) :
    (-x).roundToPlace place = -x.roundToPlace place := by
  rw [← value_inj, value_roundToPlace, value_neg, value_neg, value_roundToPlace, nearestAt_neg]

protected theorem neg_add (x y : Decimal) : -(x + y) = -x + -y := by
  rcases eq_or_ne x 0 with rfl | hx
  · rw [Decimal.zero_add, neg_eq_zero_iff.mpr rfl, Decimal.zero_add]
  rcases eq_or_ne y 0 with rfl | hy
  · rw [Decimal.add_zero, neg_eq_zero_iff.mpr rfl, Decimal.add_zero]
  rw [add_eq hx hy, add_eq (neg_eq_zero_iff.not.mpr hx) (neg_eq_zero_iff.not.mpr hy), exactAdd_neg,
    sumPlace_neg hx hy, roundToPlace_neg]

/-- A difference is the other difference with its sign changed. -/
protected theorem neg_sub (x y : Decimal) : -(x - y) = y - x := by
  change -(x + -y) = y + -x
  rw [Decimal.neg_add, Decimal.neg_neg, Decimal.add_comm]

end Symmetry

end TableCalc.Decimal
