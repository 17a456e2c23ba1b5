import Mathlib.Tactic.Ring
import TableCalc.Decimal.Arithmetic

/-!
The one form of a decimal. Factors ten move between significand and exponent without a change of the
number, so a number is found again from any of its forms; and what is rounded to as many digits as it
has stays as it is.
-/

namespace TableCalc.Decimal

theorem isZero_iff {x : Decimal} : x.isZero = true ↔ x = 0 := by
  obtain ⟨significand, exponent, reduced⟩ := x
  constructor
  · intro h
    have hsignificand : significand = 0 := by simpa [isZero] using h
    have hexponent : exponent = 0 := by omega
    subst hsignificand hexponent
    rfl
  · rintro ⟨⟩
    rfl

@[simp]
theorem scaled_zero (e : Int) : scaled 0 e = 0 := by
  unfold scaled
  rfl

theorem scaled_ne_zero {s : Int} (hs : s ≠ 0) (e : Int) : scaled s e ≠ 0 := by
  fun_induction scaled s e with
  | case1 => exact absurd rfl hs
  | case2 s e _ hten ih => exact ih (by omega)
  | case3 =>
    intro h
    exact hs (congrArg significand h)

theorem scaled_ten (s e : Int) : scaled (s * 10) e = scaled s (e + 1) := by
  by_cases hs : s = 0
  · rw [hs, Int.zero_mul, scaled_zero, scaled_zero]
  · rw [scaled, dif_neg (by omega), dif_pos (by omega), Int.mul_ediv_cancel s (by decide)]

theorem scaled_tenPow (s e : Int) (k : Nat) :
    scaled (s * Text.tenPow k) e = scaled s (e + k) := by
  induction k generalizing e with
  | zero => simp [Text.tenPow]
  | succ k ih =>
    have hpow : s * (Text.tenPow (k + 1) : Nat) = s * Text.tenPow k * 10 := by
      simp only [Text.tenPow, Nat.pow_eq, Nat.pow_succ, Nat.cast_mul]
      ring
    rw [hpow, scaled_ten, ih]
    congr 1
    omega

theorem scaled_eq_self (x : Decimal) : scaled x.significand x.exponent = x := by
  obtain ⟨s, e, hten | ⟨rfl, rfl⟩⟩ := x
  · have hs : s ≠ 0 := by omega
    unfold scaled
    rw [dif_neg hs, dif_neg hten]
  · exact scaled_zero 0

/-- The form of a number at a lower exponent denotes the same number. -/
theorem scaled_significandAt (x : Decimal) {e : Int} (he : e ≤ x.exponent) :
    scaled (x.significandAt e) e = x := by
  rw [significandAt, scaled_tenPow]
  have hexponent : e + ((x.exponent - e).toNat : Nat) = x.exponent := by omega
  rw [hexponent, scaled_eq_self]

/-- The factors ten that a number loses are those that its exponent gains. -/
theorem scaled_factors (s e : Int) (hs : s ≠ 0) :
    ∃ k : Nat, (scaled s e).exponent = e + k ∧ (scaled s e).significand * Text.tenPow k = s := by
  induction s, e using scaled.induct with
  | case1 => exact absurd rfl hs
  | case2 s e _ hten ih =>
    obtain ⟨k, hexponent, hsignificand⟩ := ih (by omega)
    refine ⟨k + 1, ?_, ?_⟩
    · rw [scaled, dif_neg hs, dif_pos hten, hexponent]
      omega
    · rw [scaled, dif_neg hs, dif_pos hten]
      simp only [Text.tenPow, Nat.pow_eq, Nat.pow_succ, Nat.cast_mul] at hsignificand ⊢
      rw [← mul_assoc, hsignificand]
      omega
  | case3 s e _ hten =>
    rw [scaled, dif_neg hs, dif_neg hten]
    exact ⟨0, (Int.add_zero e).symm, Int.mul_one s⟩

section Whole

theorem isInteger_ofInt (n : Int) : (ofInt n).isInteger = true := by
  rw [isInteger, decide_eq_true_iff]
  by_cases hn : n = 0
  · rw [hn, ofInt, scaled_zero]
    decide
  · obtain ⟨k, hexponent, -⟩ := scaled_factors n 0 hn
    rw [ofInt, hexponent]
    omega

@[simp]
theorem toInt?_ofInt (n : Int) : (ofInt n).toInt? = some n := by
  rw [toInt?, if_pos (isInteger_ofInt n)]
  by_cases hn : n = 0
  · rw [hn, ofInt, scaled_zero]
    rfl
  · obtain ⟨k, hexponent, hsignificand⟩ := scaled_factors n 0 hn
    rw [ofInt, hexponent, Int.zero_add, Int.toNat_natCast, hsignificand]

theorem floor_ofInt (n : Int) : (ofInt n).floor = ofInt n := if_pos (isInteger_ofInt n)

protected theorem neg_neg (x : Decimal) : -(-x) = x := by
  obtain ⟨s, e, hreduced⟩ := x
  simp only [Neg.neg, neg, Decimal.mk.injEq, and_true]
  exact Int.neg_neg s

/-- A whole number has no fraction to drop. -/
theorem trunc_ofInt (n : Int) : (ofInt n).trunc = ofInt n := by
  have hneg : (-(ofInt n)).floor = -(ofInt n) := if_pos (isInteger_ofInt n)
  rw [trunc, ceil, hneg, Decimal.neg_neg, floor_ofInt, ite_self]

theorem ofInt_ne_zero {n : Int} (hn : n ≠ 0) : ofInt n ≠ 0 := scaled_ne_zero hn 0

theorem ofInt_injective {m n : Int} (h : ofInt m = ofInt n) : m = n := by
  have hint := congrArg toInt? h
  rwa [toInt?_ofInt, toInt?_ofInt, Option.some.injEq] at hint

end Whole

section Precision

theorem digitCount_le_iff {n d : Nat} (hd : 0 < d) : digitCount n ≤ d ↔ n < 10 ^ d :=
  Nat.length_toDigits_le_iff (by decide) hd

/-- A number has no more digits than any of its forms, and a power of ten has but one. -/
theorem precision_scaled_le {s e : Int} {d : Nat} (hd : 0 < d) (hs : s.natAbs ≤ 10 ^ d) :
    (scaled s e).precision ≤ d := by
  rw [precision, digitCount_le_iff hd]
  by_cases hzero : s = 0
  · rw [hzero, scaled_zero]
    exact Nat.pow_pos (by decide)
  obtain ⟨k, -, hfactors⟩ := scaled_factors s e hzero
  have hreduced := (scaled s e).reduced
  generalize (scaled s e).significand = m at hfactors hreduced
  have habs : s.natAbs = m.natAbs * 10 ^ k := by
    rw [← hfactors, Int.natAbs_mul]
    rfl
  obtain ⟨d, rfl⟩ : ∃ d', d = d' + 1 := ⟨d - 1, by omega⟩
  have hm : m.natAbs ≤ 10 ^ (d + 1) := (Nat.le_mul_of_pos_right _ (Nat.pow_pos (by decide))).trans
    (habs ▸ hs)
  refine Nat.lt_of_le_of_ne hm fun heq => ?_
  rw [Nat.pow_succ] at heq
  omega

theorem roundDiv_one (n : Nat) : roundDiv n 1 = n := by
  unfold roundDiv
  omega

theorem roundQuotient_one (n : Int) : roundQuotient n 1 = n := by
  rw [roundQuotient, Int.sign_one, Int.mul_one, Int.natAbs_one, roundDiv_one, Int.sign_mul_natAbs]

/-- Rounding to the digits that a number has changes nothing. -/
theorem roundToDigits_eq_self {x : Decimal} {d : Nat} (h : x.precision ≤ d) :
    x.roundToDigits d = x := by
  have hdropped : (x.top - d - x.exponent).toNat = 0 := by
    unfold top
    omega
  have hone : ((Text.tenPow 0 : Nat) : Int) = 1 := rfl
  rw [roundToDigits, roundToPlace, hdropped, hone, roundQuotient_one, Nat.cast_zero, Int.add_zero,
    scaled_eq_self]

theorem natAbs_roundQuotient_le (n d : Int) :
    (roundQuotient n d).natAbs ≤ roundDiv n.natAbs d.natAbs := by
  have hsign (z : Int) : z.sign.natAbs ≤ 1 := by
    rw [Int.natAbs_sign]
    split <;> decide
  rw [roundQuotient, Int.natAbs_mul, Int.natAbs_mul, Int.natAbs_natCast]
  have hone := Nat.mul_le_mul (hsign n) (hsign d)
  exact (Nat.mul_le_mul_right _ hone).trans_eq (Nat.one_mul _)

theorem roundDiv_le {n d m : Nat} (hd : 0 < d) (hn : n ≤ m * d) : roundDiv n d ≤ m := by
  rw [roundDiv, Nat.div_le_iff_le_mul_add_pred (by omega)]
  have hmul : 2 * d * m = 2 * (m * d) := by ring
  omega

/-- What is rounded to some digits has no more of them. -/
theorem precision_roundToDigits_le (x : Decimal) {d : Nat} (hd : 0 < d) :
    (x.roundToDigits d).precision ≤ d := by
  by_cases h : x.precision ≤ d
  · rwa [roundToDigits_eq_self h]
  have hdropped : (x.top - d - x.exponent).toNat = x.precision - d := by
    unfold top
    omega
  have hlt : x.significand.natAbs < 10 ^ x.precision :=
    (digitCount_le_iff (by omega)).mp (Nat.le_refl _)
  have hpow : 10 ^ x.precision = 10 ^ d * 10 ^ (x.precision - d) := by
    rw [← Nat.pow_add]
    congr 1
    omega
  rw [roundToDigits, roundToPlace, hdropped]
  refine precision_scaled_le hd ((natAbs_roundQuotient_le _ _).trans ?_)
  exact roundDiv_le (Nat.pow_pos (by decide)) (hpow ▸ hlt.le)

end Precision

end TableCalc.Decimal
