import TableCalc.Proofs.Decimal.Division
import TableCalc.Proofs.Decimal.Sums
import TableCalc.Proofs.Outcome

/-!
The digits of results. One digit more than the working precision is kept by sums of unlike sign and by
quotients, and no operation on such numbers keeps more. For sums the place that is rounded at decides:
it is never below that of the last digit that may be kept, also where it is counted from the top of the
larger number, as a sum of unlike sign does not reach above that one.
-/

namespace TableCalc.Decimal

variable {x y z : Decimal}

section Sums

theorem value_pos_iff : 0 < x.value ↔ 0 < x.significand := by
  rw [value, mul_pos_iff_of_pos_right (tenPow_pos _), Int.cast_pos]

/-- Numbers of unlike sign take from each other. -/
theorem abs_add_lt_of_unlike (hx : x ≠ 0) (hy : y ≠ 0) (hsign : sameSign x y ≠ true) {e : ℤ}
    (hxtop : x.top ≤ e) (hytop : y.top ≤ e) : |x.value + y.value| < 10 ^ e := by
  have hxlt := abs_lt.mp ((abs_value_lt hx).trans_le (tenPow_le hxtop))
  have hylt := abs_lt.mp ((abs_value_lt hy).trans_le (tenPow_le hytop))
  have hxne := significand_ne_zero hx
  have hyne := significand_ne_zero hy
  rw [sameSign, ne_eq, beq_iff_eq, decide_eq_decide] at hsign
  rw [abs_lt]
  rcases lt_or_gt_of_ne hxne with hxneg | hxpos
  · have hypos : 0 < y.value := value_pos_iff.mpr (by omega)
    have hxneg : x.value < 0 := (multiple_neg_iff _ _).mpr hxneg
    constructor <;> linarith
  · have hyneg : y.value < 0 := (multiple_neg_iff _ _).mpr (by omega)
    have hxpos := value_pos_iff.mpr hxpos
    constructor <;> linarith

theorem le_unlikePlace (hx : x ≠ 0) (hy : y ≠ 0) (hsum : x.value + y.value ≠ 0)
    (hsign : sameSign x y ≠ true) :
    digitPlace (workingDigits + 1) (x.value + y.value) ≤ unlikePlace x y := by
  rw [unlikePlace]
  split
  · rw [← value_exactAdd, digitPlace_value]
    omega
  · have hlt := abs_add_lt_of_unlike hx hy hsign le_rfl (show y.top ≤ x.top by omega)
    rw [abs_lt_tenPow_iff hsum] at hlt
    unfold digitPlace
    omega

/-- The place that a sum is rounded at is not below that of the digit behind the last working one. -/
theorem le_sumPlace (hx : x ≠ 0) (hy : y ≠ 0) (hsum : x.value + y.value ≠ 0) :
    digitPlace (workingDigits + 1) (x.value + y.value) ≤ sumPlace x y := by
  rw [sumPlace]
  split
  · rw [← value_exactAdd, digitPlace_value]
    omega
  · next hunlike =>
    have hsign := (not_or.mp hunlike).2
    split
    · exact le_unlikePlace hx hy hsum hsign
    · rw [add_comm x.value] at hsum ⊢
      exact le_unlikePlace hy hx hsum (sameSign_comm x y ▸ hsign)

end Sums

section Results

theorem hasDigits_zero (digits : ℕ) : HasDigits digits 0 :=
  ⟨0, 0, by rw [abs_zero]; positivity, by simp⟩

theorem precision_le_of_hasDigits (h : HasDigits (workingDigits + 1) x.value) :
    x.precision ≤ workingDigits + 1 :=
  (hasDigits_value_iff (Nat.succ_pos _)).mp h

/-- A sum of numbers with one digit more than the working precision has no more digits than these. -/
theorem precision_add_le (hx : x.precision ≤ workingDigits + 1)
    (hy : y.precision ≤ workingDigits + 1) : (x + y).precision ≤ workingDigits + 1 := by
  rcases eq_or_ne x 0 with rfl | hxne
  · rwa [Decimal.zero_add]
  rcases eq_or_ne y 0 with rfl | hyne
  · rwa [Decimal.add_zero]
  apply precision_le_of_hasDigits
  rw [add_eq hxne hyne, value_roundToPlace, value_exactAdd]
  rcases eq_or_ne (x.value + y.value) 0 with hzero | hsum
  · rw [hzero, nearestAt_zero]
    exact hasDigits_zero _
  · exact hasDigits_nearestAt (Nat.succ_pos _) (le_sumPlace hxne hyne hsum)

theorem precision_neg (x : Decimal) : (-x).precision = x.precision :=
  congrArg digitCount (Int.natAbs_neg x.significand)

theorem precision_sub_le (hx : x.precision ≤ workingDigits + 1)
    (hy : y.precision ≤ workingDigits + 1) : (x - y).precision ≤ workingDigits + 1 :=
  precision_add_le hx ((precision_neg y).trans_le hy)

theorem precision_mul_le (x y : Decimal) : (x * y).precision ≤ workingDigits :=
  precision_roundToDigits_le _ (by decide)

/-- Whatever it is divided by, a number with one digit more than the working precision gives a quotient
with no more digits than it has. -/
theorem precision_divide_le (hx : x.precision ≤ workingDigits + 1) (h : divide x y = .ok z) :
    z.precision ≤ workingDigits + 1 := by
  have hy : y ≠ 0 := by
    rintro rfl
    cases h
  rw [divide_eq hy] at h
  obtain rfl := Except.ok.inj h
  obtain ⟨digits, hleast, hmost, hvalue⟩ := exists_quotient_eq_nearest hy x
  apply precision_le_of_hasDigits
  rw [hvalue]
  have hpos : 0 < digits := Nat.lt_of_lt_of_le (by decide) hleast
  exact (hasDigits_nearest hpos _).mono (hmost.trans (max_le hx le_rfl))

theorem precision_divideTo_le {digits : ℕ} (hx : x.precision ≤ workingDigits + 1)
    (h : divideTo digits x y = .ok z) : z.precision ≤ workingDigits + 1 := by
  have hworking : workingDigits = 50 := rfl
  obtain ⟨q, hq, h⟩ := bind_eq_ok_iff.mp h
  split at h
  · obtain rfl := pure_eq_ok_iff.mp h
    exact precision_divide_le hx hq
  · obtain rfl := pure_eq_ok_iff.mp h
    exact (precision_roundToDigits_le _ (by omega)).trans (by omega)

end Results

end TableCalc.Decimal
