import TableCalc.Proofs.Decimal.Nearest
import TableCalc.Proofs.Decimal.Scaling

/-!
Decimals as rational numbers. A decimal is the one form of its value, the order of decimals is that of
their values, and what is rounded on significands is the value rounded to the nearest decimal.
-/

namespace TableCalc.Decimal

/-- The rational number that a decimal is. -/
def value (x : Decimal) : ℚ := x.significand * 10 ^ x.exponent

variable {x y : Decimal}

section Forms

theorem cast_tenPow (k : ℕ) : ((Text.tenPow k : ℕ) : ℚ) = 10 ^ (k : ℤ) := by
  rw [zpow_natCast]
  exact Nat.cast_pow 10 k

@[simp]
theorem value_zero : (0 : Decimal).value = 0 := zero_mul _

@[simp]
theorem value_scaled (s e : ℤ) : (scaled s e).value = s * 10 ^ e := by
  rcases eq_or_ne s 0 with rfl | hs
  · rw [scaled_zero, value_zero, Int.cast_zero, zero_mul]
  · obtain ⟨k, hexponent, hsignificand⟩ := scaled_factors s e hs
    have hcast := congrArg (Int.cast (R := ℚ)) hsignificand
    rw [Int.cast_mul, Int.cast_natCast, cast_tenPow] at hcast
    rw [value, hexponent, ← hcast, add_comm, tenPow_add, mul_assoc]

@[simp]
theorem value_ofInt (n : ℤ) : (ofInt n).value = n := by
  rw [ofInt, value_scaled, zpow_zero, mul_one]

@[simp]
theorem value_neg (x : Decimal) : (-x).value = -x.value := by
  rw [value, value, ← neg_mul, ← Int.cast_neg]
  rfl

theorem significandAt_mul {e : ℤ} (he : e ≤ x.exponent) :
    (x.significandAt e : ℚ) * 10 ^ e = x.value := by
  rw [← value_scaled, scaled_significandAt x he]

/-- Each number has one decimal. -/
theorem value_inj : x.value = y.value ↔ x = y := by
  refine ⟨fun h => ?_, congrArg value⟩
  have hx := x.significandAt_mul (min_le_left x.exponent y.exponent)
  have hy := y.significandAt_mul (min_le_right x.exponent y.exponent)
  have hcast := mul_right_cancel₀ (tenPow_pos _).ne' (hx.trans (h.trans hy.symm))
  rw [← x.scaled_significandAt (min_le_left x.exponent y.exponent), Int.cast_injective hcast,
    y.scaled_significandAt (min_le_right x.exponent y.exponent)]

theorem value_eq_zero_iff : x.value = 0 ↔ x = 0 := by
  rw [← value_zero, value_inj]

theorem multiple_neg_iff (n e : ℤ) : (n : ℚ) * 10 ^ e < 0 ↔ n < 0 := by
  rw [← neg_pos, ← neg_mul, mul_pos_iff_of_pos_right (tenPow_pos e), neg_pos, Int.cast_lt_zero]

theorem value_neg_iff : x.value < 0 ↔ x.isNegative = true := by
  rw [value, multiple_neg_iff, isNegative, decide_eq_true_iff]

theorem value_exactAdd (x y : Decimal) : (exactAdd x y).value = x.value + y.value := by
  rw [exactAdd, value_scaled, Int.cast_add, add_mul, significandAt_mul (min_le_left _ _),
    significandAt_mul (min_le_right _ _)]

theorem value_exactMul (x y : Decimal) : (exactMul x y).value = x.value * y.value := by
  rw [exactMul, value_scaled, Int.cast_mul, tenPow_add, value, value]
  ring

theorem compare_multiples (m n e : ℤ) :
    compare ((m : ℚ) * 10 ^ e) (n * 10 ^ e) = compare m n := by
  have hpow := tenPow_pos e
  rcases lt_trichotomy m n with hlt | rfl | hgt
  · rw [compare_lt_iff_lt.mpr hlt, compare_lt_iff_lt]
    exact mul_lt_mul_of_pos_right (Int.cast_lt.mpr hlt) hpow
  · rw [compare_eq_iff_eq.mpr rfl, compare_eq_iff_eq.mpr rfl]
  · rw [compare_gt_iff_gt.mpr hgt, compare_gt_iff_gt]
    exact mul_lt_mul_of_pos_right (Int.cast_lt.mpr hgt) hpow

/-- The order of decimals is that of their values. -/
theorem compare_eq_compare_value (x y : Decimal) : compare x y = compare x.value y.value := by
  rw [← significandAt_mul (min_le_left x.exponent y.exponent),
    ← significandAt_mul (min_le_right x.exponent y.exponent), compare_multiples]
  rfl

end Forms

section Size

variable {digits : ℕ}

theorem digitCount_pos (n : ℕ) : 0 < digitCount n := List.length_pos_iff.mpr Nat.toDigits_ne_nil

theorem lt_tenPow_digitCount (n : ℕ) : n < 10 ^ digitCount n :=
  (digitCount_le_iff (digitCount_pos n)).mp le_rfl

theorem natAbs_significand_lt (h : x.precision ≤ digits) : x.significand.natAbs < 10 ^ digits :=
  (lt_tenPow_digitCount _).trans_le (Nat.pow_le_pow_right (by decide) h)

theorem tenPow_digitCount_le {n : ℕ} (hn : n ≠ 0) : 10 ^ (digitCount n - 1) ≤ n := by
  by_contra! hlt
  rcases Nat.eq_zero_or_pos (digitCount n - 1) with hone | hpos
  · rw [hone, pow_zero, Nat.lt_one_iff] at hlt
    exact hn hlt
  · have hle := (digitCount_le_iff hpos).mpr hlt
    omega

theorem significand_ne_zero (hx : x ≠ 0) : x.significand ≠ 0 := fun h =>
  hx (isZero_iff.mp (beq_iff_eq.mpr h))

theorem abs_value (x : Decimal) : |x.value| = x.significand.natAbs * 10 ^ x.exponent := by
  rw [value, abs_mul, abs_of_pos (tenPow_pos _), Nat.cast_natAbs, Int.cast_abs]

/-- The leading digit of a number stands below its top. -/
theorem log_value (x : Decimal) : Int.log 10 |x.value| + 1 = x.top := by
  rcases eq_or_ne x 0 with rfl | hx
  · rw [value_zero, abs_zero, Int.log_zero_right]
    rfl
  have hvalue : x.value ≠ 0 := value_eq_zero_iff.not.mpr hx
  have hpow := tenPow_pos x.exponent
  have hpos := digitCount_pos x.significand.natAbs
  have hlow := tenPow_digitCount_le (Int.natAbs_ne_zero.mpr (significand_ne_zero hx))
  have hhigh := lt_tenPow_digitCount x.significand.natAbs
  have hlt : Int.log 10 |x.value| < x.precision + x.exponent := by
    rw [← abs_lt_tenPow_iff hvalue, abs_value, tenPow_add, zpow_natCast]
    exact mul_lt_mul_of_pos_right (by exact_mod_cast hhigh) hpow
  have hle : (digitCount x.significand.natAbs - 1 : ℕ) + x.exponent ≤ Int.log 10 |x.value| := by
    rw [← tenPow_le_abs_iff hvalue, abs_value, tenPow_add, zpow_natCast]
    exact mul_le_mul_of_nonneg_right (by exact_mod_cast hlow) hpow.le
  have hprecision : x.precision = digitCount x.significand.natAbs := rfl
  unfold top
  omega

theorem digitPlace_value (x : Decimal) (digits : ℕ) :
    digitPlace digits x.value = x.top - digits := by
  rw [digitPlace, log_value]

theorem abs_value_lt (hx : x ≠ 0) : |x.value| < 10 ^ x.top := by
  rw [abs_lt_tenPow_iff (value_eq_zero_iff.not.mpr hx), ← log_value]
  exact Int.lt_succ _

theorem tenPow_le_abs_value (hx : x ≠ 0) : 10 ^ (x.top - 1) ≤ |x.value| := by
  rw [tenPow_le_abs_iff (value_eq_zero_iff.not.mpr hx), ← log_value]
  exact (Int.add_sub_cancel _ _).le

/-- The digits of a significand are all that a number needs. -/
theorem hasDigits_value_iff (hpos : 0 < digits) :
    HasDigits digits x.value ↔ x.precision ≤ digits := by
  constructor
  · rintro ⟨s, e, hs, heq⟩
    have hx : x = scaled s e := value_inj.mp (heq.trans (value_scaled s e).symm)
    rw [hx]
    rw [Int.abs_eq_natAbs] at hs
    exact precision_scaled_le hpos (by exact_mod_cast hs.le)
  · intro h
    refine ⟨x.significand, x.exponent, ?_, rfl⟩
    rw [Int.abs_eq_natAbs]
    exact_mod_cast natAbs_significand_lt h

end Size

section Rounding

theorem cast_roundDiv {d : ℕ} (hd : 0 < d) (n : ℕ) : (roundDiv n d : ℤ) = nearestInt (n / d) := by
  have hnonneg : (0 : ℚ) ≤ n / d := by positivity
  have hhalf : (n : ℚ) / d + 1 / 2 = ((2 * n + d : ℕ) : ℚ) / ((2 * d : ℕ) : ℚ) := by
    have hne : (d : ℚ) ≠ 0 := by positivity
    push_cast
    field_simp
  rw [nearestInt_of_nonneg hnonneg, hhalf, Rat.floor_natCast_div_natCast]
  rfl

theorem roundQuotient_natCast {k : ℕ} (hk : 0 < k) (m : ℕ) :
    roundQuotient m k = nearestInt (m / k) := by
  rcases Nat.eq_zero_or_pos m with rfl | hm
  · simp [roundQuotient]
  · rw [roundQuotient, Int.natAbs_natCast, Int.natAbs_natCast, cast_roundDiv hk,
      Int.sign_natCast_of_ne_zero hm.ne', Int.sign_natCast_of_ne_zero hk.ne', one_mul, one_mul]

theorem roundQuotient_neg_left (n d : ℤ) : roundQuotient (-n) d = -roundQuotient n d := by
  simp [roundQuotient]

theorem roundQuotient_neg_right (n d : ℤ) : roundQuotient n (-d) = -roundQuotient n d := by
  simp [roundQuotient]

/-- The whole number nearest to a quotient. -/
theorem roundQuotient_eq {d : ℤ} (hd : d ≠ 0) (n : ℤ) : roundQuotient n d = nearestInt (n / d) := by
  wlog hdpos : 0 < d generalizing d
  · have h := this (neg_ne_zero.mpr hd) (by omega)
    rwa [roundQuotient_neg_right, Int.cast_neg, div_neg, nearestInt_neg, neg_inj] at h
  wlog hn : 0 ≤ n generalizing n
  · have h := this (-n) (by omega)
    rwa [roundQuotient_neg_left, Int.cast_neg, neg_div, nearestInt_neg, neg_inj] at h
  lift d to ℕ using hdpos.le
  lift n to ℕ using hn
  rw [Int.cast_natCast, Int.cast_natCast, roundQuotient_natCast (by omega)]

/-- Rounding at a place gives the nearest multiple of its power of ten. -/
theorem value_roundToPlace (x : Decimal) (place : ℤ) :
    (x.roundToPlace place).value = nearestAt place x.value := by
  have hten : ((Text.tenPow (place - x.exponent).toNat : ℕ) : ℤ) ≠ 0 := by
    have hpow : 0 < Text.tenPow (place - x.exponent).toNat := Nat.pow_pos (by decide)
    omega
  rw [roundToPlace, value_scaled, roundQuotient_eq hten, Int.cast_natCast, cast_tenPow]
  rcases le_total place x.exponent with hfine | hcoarse
  · obtain ⟨n, hn⟩ := exists_multiple x.significand hfine
    have hdropped : (place - x.exponent).toNat = 0 := by omega
    rw [hdropped, value, hn, nearestAt_multiple, ← hn]
    simp
  · have hdropped : ((place - x.exponent).toNat : ℤ) = place - x.exponent := by omega
    have hunit := tenPow_add (place - x.exponent) x.exponent
    rw [sub_add_cancel] at hunit
    rw [hdropped, add_sub_cancel, nearestAt, value, hunit,
      mul_div_mul_right _ _ (tenPow_pos x.exponent).ne']

/-- Rounding to digits gives the nearest number of that many digits. -/
theorem value_roundToDigits (x : Decimal) (digits : ℕ) :
    (x.roundToDigits digits).value = nearest digits x.value := by
  rw [roundToDigits, value_roundToPlace, nearest, digitPlace_value]

end Rounding

end TableCalc.Decimal
