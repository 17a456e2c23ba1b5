import TableCalc.Proofs.Decimal.Canonical
import TableCalc.Proofs.Decimal.Quotients

/-!
Division to a number of digits. The quotient that is rounded is the working quotient, not the exact
one, so the result is the number nearest to the exact quotient unless the working quotient lies half
way between two neighbours and the exact one below it.
-/

namespace TableCalc.Decimal

variable {x y : Decimal}

theorem divide_eq (hy : y ≠ 0) : divide x y = .ok (quotient x y) :=
  if_neg (isZero_iff.not.mpr hy)

theorem divideTo_workingDigits (hy : y ≠ 0) :
    divideTo workingDigits x y = .ok (quotient x y) := by
  rw [divideTo, divide_eq hy]
  rfl

/-- At any other number of digits the working quotient is rounded once more. -/
theorem divideTo_of_ne (hy : y ≠ 0) {digits : ℕ} (hne : digits ≠ workingDigits) :
    divideTo digits x y = .ok ((quotient x y).roundToDigits (min (max digits 1) workingDigits)) := by
  have hbeq : (digits == workingDigits) = false := beq_eq_false_iff_ne.mpr hne
  rw [divideTo, divide_eq hy]
  simp only [bind, Except.bind, hbeq]
  rfl

theorem divideTo_eq (hy : y ≠ 0) {digits : ℕ} (hpos : 0 < digits) (hless : digits < workingDigits) :
    divideTo digits x y = .ok ((quotient x y).roundToDigits digits) := by
  rw [divideTo_of_ne hy hless.ne, max_eq_left hpos, min_eq_left hless.le]

theorem quotient_nearest_cases (hy : y ≠ 0) (hx : x.precision ≤ workingDigits) :
    (quotient x y).value = nearest workingDigits (x.value / y.value) ∨
      (quotient x y).value = nearest (workingDigits + 1) (x.value / y.value) := by
  obtain ⟨digits, hleast, hmost, hvalue⟩ := exists_quotient_eq_nearest hy x
  obtain rfl | rfl : digits = workingDigits ∨ digits = workingDigits + 1 := by omega
  · exact .inl hvalue
  · exact .inr hvalue

/-- A working quotient that has no more digits than the working precision is the nearest of these
numbers, also where one digit more was kept. -/
theorem quotient_eq_nearest_iff (hy : y ≠ 0) (hx : x.precision ≤ workingDigits) :
    (quotient x y).value = nearest workingDigits (x.value / y.value) ↔
      (quotient x y).precision ≤ workingDigits := by
  have hworking : 0 < workingDigits := by decide
  rw [← hasDigits_value_iff hworking]
  constructor
  · intro heq
    rw [heq]
    exact hasDigits_nearest hworking _
  · intro hdigits
    rcases quotient_nearest_cases hy hx with heq | heq
    · exact heq
    · rw [heq] at hdigits ⊢
      rw [← hdigits.nearest_eq]
      exact (nearest_nearest_iff hworking (Nat.lt_succ_self _) _).mpr fun h =>
        hdigits.not_isHalfway h.2

/-- Rounding the working quotient once more gives the number nearest to the exact quotient, unless the
working quotient lies half way between two neighbours and the exact one closer to zero. -/
theorem quotient_roundToDigits_iff (hy : y ≠ 0) {digits : ℕ} (hpos : 0 < digits)
    (hless : digits < workingDigits) :
    ((quotient x y).roundToDigits digits).value = nearest digits (x.value / y.value) ↔
      ¬(|x.value / y.value| < |(quotient x y).value| ∧ IsHalfway digits (quotient x y).value) := by
  obtain ⟨more, hleast, -, hvalue⟩ := exists_quotient_eq_nearest hy x
  rw [value_roundToDigits, hvalue]
  exact nearest_nearest_iff hpos (hless.trans_le hleast) _

/-- A quotient that has no more digits than are asked for is exact. -/
theorem divideTo_exact (hy : y ≠ 0) {digits : ℕ} (hpos : 0 < digits) (hmost : digits ≤ workingDigits)
    (hdigits : HasDigits digits (x.value / y.value)) :
    ∃ z, divideTo digits x y = .ok z ∧ z.value = x.value / y.value := by
  obtain ⟨more, hleast, -, hvalue⟩ := exists_quotient_eq_nearest hy x
  rw [(hdigits.mono (hmost.trans hleast)).nearest_eq] at hvalue
  rcases hmost.eq_or_lt with rfl | hless
  · exact ⟨_, divideTo_workingDigits hy, hvalue⟩
  · exact ⟨_, divideTo_eq hy hpos hless, by rw [value_roundToDigits, hvalue, hdigits.nearest_eq]⟩

/-- Division rounds the quotient twice. For a dividend that is read from text, the working quotient is
the exact one rounded to fifty or fifty-one digits. At fifty digits this is the result, which is the
nearest number of fifty digits unless it has one digit more. At fewer digits the result is the number
nearest to the exact quotient unless the working quotient lies half way between two neighbours and the
exact quotient closer to zero; then the result is a unit of the last digit too far from zero. This does
not happen if the dividend has at most 49 digits and the divisor at most fifty less those that are asked
for. -/
theorem divideTo_nearest_iff {text : String} {digits : ℕ} (hx : read text = .ok x) (hzero : y ≠ 0)
    (hpos : 1 ≤ digits) (hmost : digits ≤ 50) :
    ∃ w z, divide x y = .ok w ∧ divideTo digits x y = .ok z ∧
      let q := x.value / y.value
      (w.value = nearest 50 q ∨ w.value = nearest 51 q) ∧
      (digits = 50 → z = w ∧ (z.value = nearest digits q ↔ z.precision ≤ digits)) ∧
      (digits < 50 →
        (z.value = nearest digits q ↔ ¬(|q| < |w.value| ∧ IsHalfway digits w.value)) ∧
        (|q| < |w.value| → IsHalfway digits w.value →
          |z.value| = |nearest digits q| + 10 ^ digitPlace digits q) ∧
        (x.precision ≤ 49 → y.precision + digits ≤ 50 → z.value = nearest digits q)) := by
  have hprecision := precision_read_le hx
  have hworking := quotient_nearest_cases hzero hprecision
  rcases hmost.eq_or_lt with rfl | hless
  · refine ⟨quotient x y, quotient x y, divide_eq hzero, divideTo_workingDigits hzero, hworking,
      fun _ => ⟨rfl, quotient_eq_nearest_iff hzero hprecision⟩, fun hlt => absurd hlt (lt_irrefl _)⟩
  · refine ⟨quotient x y, _, divide_eq hzero, divideTo_eq hzero hpos hless, hworking,
      fun heq => absurd heq hless.ne, fun _ => ⟨quotient_roundToDigits_iff hzero hpos hless, ?_, ?_⟩⟩
    · obtain ⟨more, hleast, -, hvalue⟩ := exists_quotient_eq_nearest hzero x
      rw [value_roundToDigits, hvalue]
      exact abs_nearest_nearest hpos (hless.trans_le hleast)
    · intro hdividend hdivisor
      exact (quotient_roundToDigits_iff hzero hpos hless).mpr
        (quotient_not_halfway hzero hpos hless (Nat.lt_succ_of_le hdividend) hdivisor)

/-- Dividend and divisor as long as twenty digits of the quotient allow. -/
theorem divideTo_nearest_iff_longest :
    read "9999999999999999999999999999999999999999999999999" = .ok (ofInt (10 ^ 49 - 1)) ∧
    ∃ z, divideTo 20 (ofInt (10 ^ 49 - 1)) (ofInt (10 ^ 30 - 7)) = .ok z ∧
      z.value = nearest 20 ((ofInt (10 ^ 49 - 1)).value / (ofInt (10 ^ 30 - 7)).value) := by
  have hread : read "9999999999999999999999999999999999999999999999999" =
      .ok (ofInt (10 ^ 49 - 1)) := by decide +kernel
  have hzero : ofInt (10 ^ 30 - 7) ≠ 0 := ofInt_ne_zero (by decide)
  obtain ⟨w, z, -, hz, -, -, hless⟩ :=
    divideTo_nearest_iff hread hzero (by decide : 1 ≤ 20) (by decide)
  exact ⟨hread, z, hz, (hless (by decide)).2.2 (by decide +kernel) (by decide +kernel)⟩

/-- A third of a number of fifty digits is just below one half way between two numbers of twenty digits.
The working quotient is this number, so the result is the upper neighbour and not the lower one, which
is nearest. -/
theorem divideTo_twiceRounded :
    ∃ x y z, read "30000000000000000001499999999999999999999999999999" = .ok x ∧
      read "3" = .ok y ∧ y ≠ 0 ∧ divideTo 20 x y = .ok z ∧
      z = ofInt 10000000000000000001000000000000000000000000000000 ∧
      nearest 20 (x.value / y.value) = 10000000000000000000000000000000000000000000000000 ∧
      z.value ≠ nearest 20 (x.value / y.value) := by
  have hnearest : nearest 20 (30000000000000000001499999999999999999999999999999 / 3) =
      10000000000000000000000000000000000000000000000000 := by decide +kernel
  refine ⟨ofInt 30000000000000000001499999999999999999999999999999, ofInt 3, _, by decide +kernel,
    by decide +kernel, ofInt_ne_zero (by decide), by decide +kernel, rfl, ?_, ?_⟩
  · rw [value_ofInt, value_ofInt]
    exact hnearest
  · rw [value_ofInt, value_ofInt, value_ofInt]
    refine ne_of_ne_of_eq ?_ hnearest.symm
    norm_num

/-- At fifty digits a quotient may have one digit more. -/
example : divideTo 50 (ofInt 2) (ofInt 13) =
    .ok (scaled 153846153846153846153846153846153846153846153846154 (-51)) := by decide +kernel

end TableCalc.Decimal
