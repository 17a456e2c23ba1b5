import Mathlib.Tactic.GCongr
import TableCalc.Proofs.Decimal.Values

/-!
Quotients are rounded twice: to the working precision or one digit more, and from there to the digits
that are asked for. The second rounding starts from a number that the first one may have moved up to
one half way between two neighbours, and this is the only case where the result is not the nearest
number.
-/

namespace TableCalc.Decimal

variable {x y : Decimal}

section Working

/-- The place of the last digit of a quotient before it is rounded. -/
def quotientPlace (x y : Decimal) : ℤ :=
  x.exponent - y.exponent - dividendZeros x.significand.natAbs y.significand.natAbs

/-- The exact quotient in units of its last place. -/
theorem value_div_value (x y : Decimal) :
    x.value / y.value =
      (x.significand * Text.tenPow (dividendZeros x.significand.natAbs y.significand.natAbs) : ℤ) /
        y.significand * 10 ^ quotientPlace x y := by
  generalize hzeros : dividendZeros x.significand.natAbs y.significand.natAbs = zeros
  have hexponent : x.exponent = zeros + (quotientPlace x y + y.exponent) := by
    rw [quotientPlace, hzeros]
    omega
  have hpow := (tenPow_pos y.exponent).ne'
  rw [value, value, hexponent, tenPow_add, tenPow_add, Int.cast_mul, Int.cast_natCast, cast_tenPow]
  field_simp

/-- The working quotient is the exact one, rounded at its last place. -/
theorem value_quotient (hy : y ≠ 0) (x : Decimal) :
    (quotient x y).value = nearestAt (quotientPlace x y) (x.value / y.value) := by
  rw [quotient, value_scaled, roundQuotient_eq (significand_ne_zero hy), nearestAt,
    value_div_value, mul_div_cancel_right₀ _ (tenPow_pos _).ne']
  rfl

theorem abs_value_div_value (x y : Decimal) :
    |x.value / y.value| =
      (x.significand.natAbs * 10 ^ dividendZeros x.significand.natAbs y.significand.natAbs : ℕ) /
        y.significand.natAbs * 10 ^ quotientPlace x y := by
  rw [value_div_value, abs_mul, abs_of_pos (tenPow_pos _), abs_div, ← Int.cast_abs, ← Int.cast_abs,
    Int.abs_eq_natAbs, Int.abs_eq_natAbs, Int.natAbs_mul, Int.natAbs_natCast]
  rfl

/-- Zeros behind the dividend are digits of the quotient. -/
theorem zeros_bounds {n d : ℕ} (hd : 0 < d) (hle : d ≤ n) (zeros : ℕ) :
    10 ^ (digitCount (n / d) - 1 + zeros) * d ≤ n * 10 ^ zeros ∧
      n * 10 ^ zeros < 10 ^ (digitCount (n / d) + zeros) * d := by
  have hne : n / d ≠ 0 := (Nat.div_pos hle hd).ne'
  rw [pow_add, pow_add, mul_right_comm (10 ^ (digitCount (n / d) - 1)),
    mul_right_comm (10 ^ digitCount (n / d))]
  constructor
  · refine Nat.mul_le_mul_right _ ?_
    calc 10 ^ (digitCount (n / d) - 1) * d ≤ n / d * d :=
          Nat.mul_le_mul_right d (tenPow_digitCount_le hne)
      _ ≤ n := Nat.div_mul_le_self n d
  · refine Nat.mul_lt_mul_of_pos_right ?_ (by positivity)
    calc n < d * (n / d + 1) := Nat.lt_mul_div_succ n hd
      _ ≤ d * 10 ^ digitCount (n / d) := Nat.mul_le_mul_left d (lt_tenPow_digitCount _)
      _ = 10 ^ digitCount (n / d) * d := mul_comm _ _

/-- A dividend below the divisor gets as many zeros as give the quotient the working digits or one
digit more. -/
theorem dividend_bounds {n d : ℕ} (hn : n ≠ 0) (hd : d ≠ 0) (hcount : digitCount n ≤ digitCount d) :
    10 ^ (workingDigits - 1) * d ≤ n * 10 ^ (digitCount d + workingDigits - digitCount n) ∧
      n * 10 ^ (digitCount d + workingDigits - digitCount n) < 10 ^ (workingDigits + 1) * d := by
  have hworking : workingDigits = 50 := rfl
  have hncount := digitCount_pos n
  have hdcount := digitCount_pos d
  constructor
  · calc 10 ^ (workingDigits - 1) * d ≤ 10 ^ (workingDigits - 1) * 10 ^ digitCount d :=
          Nat.mul_le_mul_left _ (lt_tenPow_digitCount d).le
      _ = 10 ^ (digitCount n - 1) * 10 ^ (digitCount d + workingDigits - digitCount n) := by
        rw [← pow_add, ← pow_add]
        congr 1
        omega
      _ ≤ n * 10 ^ (digitCount d + workingDigits - digitCount n) :=
        Nat.mul_le_mul_right _ (tenPow_digitCount_le hn)
  · calc n * 10 ^ (digitCount d + workingDigits - digitCount n)
        < 10 ^ digitCount n * 10 ^ (digitCount d + workingDigits - digitCount n) :=
          Nat.mul_lt_mul_of_pos_right (lt_tenPow_digitCount n) (by positivity)
      _ = 10 ^ (workingDigits + 1) * 10 ^ (digitCount d - 1) := by
        rw [← pow_add, ← pow_add]
        congr 1
        omega
      _ ≤ 10 ^ (workingDigits + 1) * d := Nat.mul_le_mul_left _ (tenPow_digitCount_le hd)

/-- A number between two powers of ten in units of a place has that place as one of its digits. -/
theorem exists_digitPlace_eq {q : ℚ} {place : ℤ} {low high : ℕ}
    (hlow : 10 ^ low * 10 ^ place ≤ |q|) (hhigh : |q| < 10 ^ high * 10 ^ place) :
    ∃ digits, low + 1 ≤ digits ∧ digits ≤ high ∧ digitPlace digits q = place := by
  have hq : q ≠ 0 := by
    rintro rfl
    have hpos : (0 : ℚ) < 10 ^ low * 10 ^ place := mul_pos (by positivity) (tenPow_pos place)
    rw [abs_zero] at hlow
    exact absurd hlow hpos.not_ge
  rw [← zpow_natCast, ← tenPow_add, tenPow_le_abs_iff hq] at hlow
  rw [← zpow_natCast, ← tenPow_add, abs_lt_tenPow_iff hq] at hhigh
  refine ⟨(Int.log 10 |q| + 1 - place).toNat, by omega, by omega, ?_⟩
  unfold digitPlace
  omega

/-- A quotient whose last place is one of its digits is the exact one, rounded to these digits. -/
theorem quotient_eq_nearest_of_bounds (hy : y ≠ 0) {low high : ℕ}
    (hlow : 10 ^ low * y.significand.natAbs ≤
      x.significand.natAbs * 10 ^ dividendZeros x.significand.natAbs y.significand.natAbs)
    (hhigh : x.significand.natAbs * 10 ^ dividendZeros x.significand.natAbs y.significand.natAbs <
      10 ^ high * y.significand.natAbs) :
    ∃ digits, low + 1 ≤ digits ∧ digits ≤ high ∧
      (quotient x y).value = nearest digits (x.value / y.value) := by
  have hd : (0 : ℚ) < y.significand.natAbs :=
    Nat.cast_pos.mpr (Int.natAbs_pos.mpr (significand_ne_zero hy))
  have hpow := tenPow_pos (quotientPlace x y)
  have hlowValue : 10 ^ low * 10 ^ quotientPlace x y ≤ |x.value / y.value| := by
    rw [abs_value_div_value]
    refine mul_le_mul_of_nonneg_right ((le_div_iff₀ hd).mpr ?_) hpow.le
    exact_mod_cast hlow
  have hhighValue : |x.value / y.value| < 10 ^ high * 10 ^ quotientPlace x y := by
    rw [abs_value_div_value]
    refine mul_lt_mul_of_pos_right ((div_lt_iff₀ hd).mpr ?_) hpow
    exact_mod_cast hhigh
  obtain ⟨digits, hleast, hmost, hplace⟩ := exists_digitPlace_eq hlowValue hhighValue
  exact ⟨digits, hleast, hmost, by rw [value_quotient hy, nearest, hplace]⟩

/-- A division that comes out even gives the exact quotient. -/
theorem quotient_eq_nearest_of_even (hy : y ≠ 0)
    (heven : x.significand.natAbs % y.significand.natAbs = 0) :
    (quotient x y).value = nearest (max x.precision workingDigits) (x.value / y.value) := by
  have hzeros : dividendZeros x.significand.natAbs y.significand.natAbs = 0 := by
    rw [dividendZeros, if_pos (beq_iff_eq.mpr heven)]
  obtain ⟨m, hm⟩ : y.significand ∣ x.significand :=
    Int.natAbs_dvd_natAbs.mp (Nat.dvd_of_mod_eq_zero heven)
  have hvalue : x.value / y.value = m * 10 ^ quotientPlace x y := by
    have hone : ((Text.tenPow 0 : ℕ) : ℤ) = 1 := rfl
    rw [value_div_value, hzeros, hm, hone, mul_one, Int.cast_mul,
      mul_div_cancel_left₀ _ (Int.cast_ne_zero.mpr (significand_ne_zero hy))]
  have hdigits : HasDigits (max x.precision workingDigits) (x.value / y.value) := by
    refine ⟨m, quotientPlace x y, ?_, hvalue⟩
    have hle : m.natAbs ≤ x.significand.natAbs := by
      rw [hm, Int.natAbs_mul]
      exact Nat.le_mul_of_pos_left _ (Int.natAbs_pos.mpr (significand_ne_zero hy))
    have hlt := hle.trans_lt (natAbs_significand_lt (le_max_left x.precision workingDigits))
    rw [Int.abs_eq_natAbs]
    exact_mod_cast hlt
  rw [hdigits.nearest_eq, value_quotient hy, hvalue, nearestAt_multiple]

/-- The working quotient is the exact one, rounded once: to the working precision, to one digit more,
or to the digits of the dividend, if those are more. -/
theorem exists_quotient_eq_nearest (hy : y ≠ 0) (x : Decimal) :
    ∃ digits, workingDigits ≤ digits ∧ digits ≤ max x.precision (workingDigits + 1) ∧
      (quotient x y).value = nearest digits (x.value / y.value) := by
  by_cases heven : x.significand.natAbs % y.significand.natAbs = 0
  · exact ⟨_, le_max_right _ _, by omega, quotient_eq_nearest_of_even hy heven⟩
  have hn : x.significand.natAbs ≠ 0 := fun hzero => heven (by rw [hzero, Nat.zero_mod])
  have hd : y.significand.natAbs ≠ 0 := Int.natAbs_ne_zero.mpr (significand_ne_zero hy)
  by_cases hlt : x.significand.natAbs < y.significand.natAbs
  · have hcount : x.precision ≤ y.precision :=
      (digitCount_le_iff (digitCount_pos _)).mpr (hlt.trans (lt_tenPow_digitCount _))
    have hzeros : dividendZeros x.significand.natAbs y.significand.natAbs =
        y.precision + workingDigits - x.precision := by
      rw [dividendZeros, if_neg (by simpa using heven), if_pos hlt]
      rfl
    obtain ⟨hlow, hhigh⟩ := dividend_bounds hn hd hcount
    obtain ⟨digits, hleast, hmost, hdigits⟩ :=
      quotient_eq_nearest_of_bounds (x := x) hy (hzeros ▸ hlow) (hzeros ▸ hhigh)
    exact ⟨digits, by omega, by omega, hdigits⟩
  · have hzeros : dividendZeros x.significand.natAbs y.significand.natAbs =
        workingDigits - digitCount (x.significand.natAbs / y.significand.natAbs) := by
      rw [dividendZeros, if_neg (by simpa using heven), if_neg hlt]
    have hfewer : digitCount (x.significand.natAbs / y.significand.natAbs) ≤ x.precision :=
      (digitCount_le_iff (digitCount_pos _)).mpr
        ((Nat.div_le_self _ _).trans_lt (lt_tenPow_digitCount _))
    have hcount := digitCount_pos (x.significand.natAbs / y.significand.natAbs)
    obtain ⟨hlow, hhigh⟩ := zeros_bounds (Nat.pos_of_ne_zero hd) (not_lt.mp hlt)
      (workingDigits - digitCount (x.significand.natAbs / y.significand.natAbs))
    obtain ⟨digits, hleast, hmost, hdigits⟩ :=
      quotient_eq_nearest_of_bounds (x := x) hy (hzeros ▸ hlow) (hzeros ▸ hhigh)
    exact ⟨digits, by omega, by omega, hdigits⟩

end Working

section Halfway

variable {digits : ℕ}

/-- The distance between a fraction and a half is a multiple of half the share of its divisor. -/
theorem half_gap {c d n : ℤ} {zeros : ℕ} (hd : 0 < d) (hlt : (c / d : ℚ) < n + 1 / 2)
    (hnear : (n + 1 / 2 : ℚ) - c / d ≤ 1 / (2 * 10 ^ zeros)) :
    0 < (2 * n + 1) * d - 2 * c ∧ ((2 * n + 1) * d - 2 * c) * 10 ^ zeros ≤ d := by
  have hdpos : (0 : ℚ) < d := Int.cast_pos.mpr hd
  have hpow : (0 : ℚ) < 2 * 10 ^ zeros := by positivity
  have hc : (c : ℚ) = c / d * d := (div_mul_cancel₀ _ hdpos.ne').symm
  generalize (c / d : ℚ) = q at hc hlt hnear
  have hgap : (((2 * n + 1) * d - 2 * c : ℤ) : ℚ) = 2 * (n + 1 / 2 - q) * d := by
    push_cast
    rw [hc]
    ring
  constructor
  · rw [← Int.cast_pos (R := ℚ), hgap]
    have hpos : 0 < n + 1 / 2 - q := by linarith
    positivity
  · rw [← Int.cast_le (R := ℚ), Int.cast_mul, hgap]
    rw [le_div_iff₀ hpow] at hnear
    calc 2 * (n + 1 / 2 - q) * d * ((10 ^ zeros : ℤ) : ℚ)
        = (n + 1 / 2 - q) * (2 * 10 ^ zeros) * d := by
          push_cast
          ring
      _ ≤ 1 * d := mul_le_mul_of_nonneg_right hnear hdpos.le
      _ = d := one_mul _

/-- A quotient of whole numbers that lies just below a number half way between two neighbours has a
long divisor or a long dividend. -/
theorem many_digits_of_near_half {a b more : ℕ} {e n : ℤ} (hb : 0 < b) (hpos : 0 < digits)
    (hmore : digits ≤ more) (hn : 10 ^ (digits - 1) ≤ n) (hlt : (a / b * 10 ^ e : ℚ) < n + 1 / 2)
    (hnear : (n + 1 / 2 : ℚ) - a / b * 10 ^ e ≤ 1 / (2 * 10 ^ (more - digits))) :
    10 ^ (more - digits) ≤ b ∨ 10 ^ (more - 1) < a := by
  have hone : (1 : ℤ) ≤ 10 ^ (more - digits) := one_le_pow₀ (by norm_num)
  rcases le_or_gt 0 e with he | he
  · left
    lift e to ℕ using he
    have hquotient : (a / b * 10 ^ (e : ℤ) : ℚ) = ((a * 10 ^ e : ℤ) : ℚ) / (b : ℤ) := by
      push_cast
      rw [zpow_natCast, div_mul_eq_mul_div]
    rw [hquotient] at hlt hnear
    obtain ⟨hgap, hle⟩ := half_gap (Int.natCast_pos.mpr hb) hlt hnear
    have hint : (10 : ℤ) ^ (more - digits) ≤ b := by nlinarith
    exact_mod_cast hint
  · right
    obtain ⟨k, rfl⟩ : ∃ k : ℕ, e = -(k + 1 : ℕ) := ⟨(-e - 1).toNat, by omega⟩
    have hquotient : (a / b * 10 ^ (-(k + 1 : ℕ) : ℤ) : ℚ) =
        ((a : ℤ) : ℚ) / ((10 * (b * 10 ^ k) : ℤ) : ℚ) := by
      push_cast
      rw [zpow_neg, ← Nat.cast_succ, zpow_natCast, pow_succ]
      field_simp
    rw [hquotient] at hlt hnear
    have hd : (0 : ℤ) < b * 10 ^ k := by positivity
    obtain ⟨hgap, hle⟩ := half_gap (by positivity) hlt hnear
    generalize (b * 10 ^ k : ℤ) = d at hd hgap hle
    -- the distance is even here, as the divisor is
    have htwo : 2 ≤ (2 * n + 1) * (10 * d) - 2 * a := by
      have heven : (2 * n + 1) * (10 * d) - 2 * a = 2 * ((2 * n + 1) * (5 * d) - a) := by ring
      omega
    have hdividend : n * (10 * d) ≤ a := by nlinarith
    have hdivisor : 2 * 10 ^ (more - digits) ≤ 10 * d := by nlinarith
    have hpow : (10 : ℤ) ^ (more - 1) = 10 ^ (digits - 1) * 10 ^ (more - digits) := by
      rw [← pow_add]
      congr 1
      omega
    have hint : (10 : ℤ) ^ (more - 1) < a := by
      calc (10 : ℤ) ^ (more - 1) < 10 ^ (digits - 1) * (2 * 10 ^ (more - digits)) := by
            rw [hpow]
            have hpart : (0 : ℤ) < 10 ^ (digits - 1) * 10 ^ (more - digits) := by positivity
            linarith
        _ ≤ n * (10 * d) := mul_le_mul hn hdivisor (by positivity) (le_trans (by positivity) hn)
        _ ≤ a := hdividend
    exact_mod_cast hint

theorem IsHalfway.exists_abs_eq {w : ℚ} (h : IsHalfway digits w) :
    ∃ n : ℤ, |w| = (n + 1 / 2) * 10 ^ digitPlace digits w := by
  rcases abs_choice w with habs | habs
  · rw [habs]
    exact h
  · rw [habs, ← digitPlace_neg]
    exact isHalfway_neg.mpr h

/-- A number half way between two neighbours has the digits of the lower one. -/
theorem tenPow_le_of_half {w : ℚ} {n : ℤ} (hpos : 0 < digits) (hw : w ≠ 0)
    (hn : |w| = (n + 1 / 2) * 10 ^ digitPlace digits w) : 10 ^ (digits - 1) ≤ n := by
  have hpow := tenPow_pos (digitPlace digits w)
  have hlog : ((digits - 1 : ℕ) : ℤ) + digitPlace digits w = Int.log 10 |w| := by
    unfold digitPlace
    omega
  have hle : (10 : ℚ) ^ (digits - 1) * 10 ^ digitPlace digits w ≤ |w| := by
    rw [← zpow_natCast, ← tenPow_add, hlog]
    exact (tenPow_le_abs_iff hw).mpr le_rfl
  rw [hn] at hle
  have hint : ((10 ^ (digits - 1) : ℤ) : ℚ) < ((n + 1 : ℤ) : ℚ) := by
    push_cast
    linarith [le_of_mul_le_mul_right hle hpow]
  have hlt := Int.cast_lt.mp hint
  omega

/-- A quotient of numbers with few digits is not moved up to one half way between two neighbours. -/
theorem quotient_not_halfway (hy : y ≠ 0) (hpos : 0 < digits) (hless : digits < workingDigits)
    (hdividend : x.precision < workingDigits) (hdivisor : y.precision + digits ≤ workingDigits) :
    ¬(|x.value / y.value| < |(quotient x y).value| ∧ IsHalfway digits (quotient x y).value) := by
  rintro ⟨hmoved, hhalf⟩
  obtain ⟨more, hmore, -, hvalue⟩ := exists_quotient_eq_nearest hy x
  rw [hvalue] at hmoved hhalf
  obtain ⟨n, hn⟩ := hhalf.exists_abs_eq
  have hw := abs_pos.mp ((abs_nonneg _).trans_lt hmoved)
  have hleast := tenPow_le_of_half hpos hw hn
  have hnear := abs_nearest_sub_abs_le hmore hmoved
  -- from here on in units of the last digit that is asked for
  generalize nearest more (x.value / y.value) = w at hmoved hn hnear
  have hpow := tenPow_pos (digitPlace digits w)
  have hscaled : |x.value / y.value| = x.significand.natAbs / y.significand.natAbs *
      10 ^ (x.exponent - y.exponent - digitPlace digits w) * 10 ^ digitPlace digits w := by
    rw [mul_assoc, ← tenPow_add, sub_add_cancel, abs_div, abs_value, abs_value, mul_div_mul_comm,
      ← zpow_sub₀ (by norm_num)]
  have hunit : (10 : ℚ) ^ digitPlace workingDigits w / 2 =
      1 / (2 * 10 ^ (workingDigits - digits)) * 10 ^ digitPlace digits w := by
    have hplaces : digitPlace digits w =
        ((workingDigits - digits : ℕ) : ℤ) + digitPlace workingDigits w := by
      unfold digitPlace
      omega
    rw [hplaces, tenPow_add, zpow_natCast]
    field_simp
  rw [hn, hscaled] at hmoved
  rw [hn, hscaled, ← sub_mul, hunit] at hnear
  rcases many_digits_of_near_half (Int.natAbs_pos.mpr (significand_ne_zero hy)) hpos hless.le hleast
    (lt_of_mul_lt_mul_right hmoved hpow.le) (le_of_mul_le_mul_right hnear hpow) with hlong | hlong
  · exact hlong.not_gt (natAbs_significand_lt (Nat.le_sub_of_add_le hdivisor))
  · exact hlong.not_gt (natAbs_significand_lt (Nat.le_sub_one_of_lt hdividend))

end Halfway

end TableCalc.Decimal
