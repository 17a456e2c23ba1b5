import TableCalc.Display
import TableCalc.Proofs.Calendar.Words
import TableCalc.Proofs.Decimal.Values

/-!
Decimals as integers. A decimal is whole just if its exponent is not below zero, and then it fits 64
bits just if its value does: no power of ten and no significand that is checked on its own is refused
that the whole would not be refused for. Rounding down and dropping the fraction are exact, so what is
written of a number of milliseconds is what was computed.
-/

namespace TableCalc.Decimal

variable {x : Decimal} {n : ℤ}

section Rounding

/-- A rational without its fraction. -/
def wholePart (q : ℚ) : ℤ := if q < 0 then ⌈q⌉ else ⌊q⌋

theorem significand_mul_of_toInt? (h : x.toInt? = some n) :
    0 ≤ x.exponent ∧ x.significand * Text.tenPow x.exponent.toNat = n := by
  rw [toInt?] at h
  split at h
  · next hinteger => exact ⟨of_decide_eq_true hinteger, Option.some.inj h⟩
  · cases h

theorem toInt?_eq_some_iff : x.toInt? = some n ↔ x.value = n := by
  constructor
  · intro h
    obtain ⟨hexponent, hproduct⟩ := significand_mul_of_toInt? h
    rw [← hproduct, value, Int.cast_mul, Int.cast_natCast, cast_tenPow,
      Int.toNat_of_nonneg hexponent]
  · intro h
    rw [value_inj.mp (h.trans (value_ofInt n).symm), toInt?_ofInt]

theorem value_floor (x : Decimal) : x.floor.value = ⌊x.value⌋ := by
  rw [floor]
  by_cases hinteger : x.isInteger = true
  · have hvalue := toInt?_eq_some_iff.mp (if_pos hinteger : x.toInt? = _)
    rw [if_pos hinteger, hvalue, Int.floor_intCast]
  · have hexponent : x.exponent < 0 := by simpa [isInteger] using hinteger
    have hvalue : x.value = x.significand / (Text.tenPow (-x.exponent).toNat : ℕ) := by
      rw [value, cast_tenPow, Int.toNat_of_nonneg (by omega), zpow_neg, div_inv_eq_mul]
    rw [if_neg hinteger, value_ofInt, hvalue, Rat.floor_intCast_div_natCast]

theorem value_ceil (x : Decimal) : x.ceil.value = ⌈x.value⌉ := by
  rw [ceil, value_neg, value_floor, value_neg, Int.floor_neg, Int.cast_neg, neg_neg]

/-- Dropping the fraction rounds up below zero and down above it. -/
theorem value_trunc (x : Decimal) : x.trunc.value = wholePart x.value := by
  rw [trunc, wholePart]
  by_cases hneg : x.isNegative = true
  · rw [if_pos hneg, if_pos (value_neg_iff.mpr hneg), value_ceil]
  · rw [if_neg hneg, if_neg (value_neg_iff.not.mpr hneg), value_floor]

end Rounding

section Words

/-- A product with a power of ten that fits 64 bits is no closer to zero than its other factor, and
the power has at most eighteen zeros. -/
theorem isInt64_of_mul_tenPow {s : ℤ} {k : ℕ} (hs : s ≠ 0)
    (h : Text.isInt64 (s * Text.tenPow k) = true) : Text.isInt64 s = true ∧ k ≤ 18 := by
  have hpow : ((Text.tenPow k : ℕ) : ℤ) = 10 ^ k := by
    rw [Text.tenPow, Nat.pow_eq, Nat.cast_pow, Nat.cast_ofNat]
  have hone : (1 : ℤ) ≤ 10 ^ k := one_le_pow₀ (by decide)
  rw [Word.isInt64_iff, hpow] at h
  rw [Word.isInt64_iff]
  refine ⟨⟨by nlinarith, by nlinarith⟩, ?_⟩
  by_contra! hk
  have hlarge : (10 : ℤ) ^ 19 ≤ 10 ^ k := pow_le_pow_right₀ (by decide) hk
  rcases lt_or_gt_of_ne hs with hneg | hpos
  · nlinarith
  · nlinarith

/-- Where the whole fits, its parts do, so that they are checked decides nothing. -/
theorem toInt64?_eq (x : Decimal) : x.toInt64? = x.toInt?.filter Text.isInt64 := by
  rw [toInt64?]
  split
  · rfl
  · next hparts =>
    refine (Option.filter_eq_none_iff.mpr fun n hn hfits => hparts ?_).symm
    obtain ⟨hexponent, rfl⟩ := significand_mul_of_toInt? hn
    rw [Bool.and_eq_true, decide_eq_true_iff]
    rcases eq_or_ne x 0 with rfl | hx
    · decide
    · obtain ⟨hsignificand, hzeros⟩ := isInt64_of_mul_tenPow (significand_ne_zero hx) hfits
      refine ⟨hsignificand, ?_⟩
      unfold maxInt64Exponent
      omega

theorem toInt64?_eq_some_iff :
    x.toInt64? = some n ↔ Text.isInt64 n = true ∧ x.value = n := by
  rw [toInt64?_eq, Option.filter_eq_some_iff, toInt?_eq_some_iff, and_comm]

theorem isInt64_iff_pow : Text.isInt64 n = true ↔ -2 ^ 63 ≤ n ∧ n < 2 ^ 63 := by
  rw [Word.isInt64_iff]
  omega

/-- A number that is an integer converts to it where it fits, and else not at all. -/
theorem toInt64?_of_value (h : x.value = n) :
    x.toInt64? = if -2 ^ 63 ≤ n ∧ n < 2 ^ 63 then some n else none := by
  rw [toInt64?_eq, toInt?_eq_some_iff.mpr h, Option.filter_some]
  simp only [isInt64_iff_pow]

/-- Of a number that is an integer the integer is written where it fits, and else what stands for the
number. -/
theorem write_of_value (h : x.value = n) (write : ℤ → String) (other : String) :
    (match x.toInt64? with
      | some n => write n
      | none => other) = if -2 ^ 63 ≤ n ∧ n < 2 ^ 63 then write n else other := by
  rw [toInt64?_of_value h]
  by_cases hfits : -2 ^ 63 ≤ n ∧ n < 2 ^ 63
  · rw [if_pos hfits, if_pos hfits]
  · rw [if_neg hfits, if_neg hfits]

theorem toInt64?_ofInt (hn : Text.isInt64 n = true) : (ofInt n).toInt64? = some n :=
  toInt64?_eq_some_iff.mpr ⟨hn, value_ofInt n⟩

end Words

/-- Conversion to 64 bits is exact. A number converts to an integer just if it is this integer and
fits. Rounded down it converts to the greatest integer that is not above it, and without its fraction
to its whole part, where these fit, and else not at all. So instants and durations are written for
exactly the milliseconds that a text counts as, and where these do not fit, the number is written. -/
theorem toInt64?_exact :
    (∀ (x : Decimal) (v : ℤ),
      x.toInt64? = some v ↔ (-2 ^ 63 ≤ v ∧ v < 2 ^ 63) ∧ x.value = v) ∧
    (∀ x : Decimal,
      x.floor.toInt64? =
        (if -2 ^ 63 ≤ ⌊x.value⌋ ∧ ⌊x.value⌋ < 2 ^ 63 then some ⌊x.value⌋ else none) ∧
      x.trunc.toInt64? =
        if -2 ^ 63 ≤ wholePart x.value ∧ wholePart x.value < 2 ^ 63 then some (wholePart x.value)
        else none) ∧
    ∀ text,
      let x := Cell.number text
      Display.write .dateTime text =
        (if -2 ^ 63 ≤ ⌊x.value⌋ ∧ ⌊x.value⌋ < 2 ^ 63 then
          toString (Calendar.Timestamp.mk ⌊x.value⌋)
        else x.canonical) ∧
      Display.write .hoursMinutes text =
        if -2 ^ 63 ≤ wholePart x.value ∧ wholePart x.value < 2 ^ 63 then
          Calendar.writeDuration (wholePart x.value)
        else x.canonical := by
  refine ⟨?converts, ?rounded, fun text => ⟨?instant, ?duration⟩⟩
  case converts =>
    intro x v
    rw [toInt64?_eq_some_iff, isInt64_iff_pow]
  case rounded =>
    exact fun x => ⟨toInt64?_of_value x.value_floor, toInt64?_of_value x.value_trunc⟩
  case instant => exact write_of_value (value_floor _) _ _
  case duration => exact write_of_value (value_trunc _) _ _

/-- Both ends of the range, with a significand that does not fit and with a power of ten that just
fits. -/
example :
    (scaled (-9223372036854775808) 0).toInt64? = some (-9223372036854775808) ∧
      (scaled 9223372036854775808 0).toInt64? = none ∧
      (scaled 9 18).toInt64? = some 9000000000000000000 ∧ (scaled 1 19).toInt64? = none := by
  decide +kernel

end TableCalc.Decimal
