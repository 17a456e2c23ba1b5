import Mathlib.Data.Int.Log
import Mathlib.Data.Rat.Floor
import Mathlib.Tactic.FieldSimp
import Mathlib.Tactic.Linarith
import Mathlib.Tactic.LinearCombination
import Mathlib.Tactic.Positivity
import Mathlib.Tactic.Ring

/-!
Rounding of rational numbers to decimal ones. Rounding at a place keeps the order and leaves the
multiples of its power of ten as they are; the rest follows from that, above all when it makes a
difference that a number is rounded twice.
-/

namespace TableCalc.Decimal

/-- The whole number nearest to a rational. A half goes away from zero. -/
def nearestInt (q : ℚ) : ℤ := if 0 ≤ q then ⌊q + 1 / 2⌋ else ⌈q - 1 / 2⌉

/-- The multiple of `10 ^ place` nearest to a rational. A half goes away from zero. -/
def nearestAt (place : ℤ) (q : ℚ) : ℚ := nearestInt (q / 10 ^ place) * 10 ^ place

/-- The place of a significant digit, counted from one at the leading digit: a unit of that digit is
`10 ^ digitPlace digits q`. -/
def digitPlace (digits : ℕ) (q : ℚ) : ℤ := Int.log 10 |q| + 1 - digits

/-- The number of `digits` significant digits nearest to a rational. A half goes away from zero. -/
def nearest (digits : ℕ) (q : ℚ) : ℚ := nearestAt (digitPlace digits q) q

/-- Whether `digits` significant digits are enough to write a rational. -/
def HasDigits (digits : ℕ) (q : ℚ) : Prop := ∃ s e : ℤ, |s| < 10 ^ digits ∧ q = s * 10 ^ e

/-- Whether a rational lies half way between two neighbouring numbers of `digits` significant
digits. -/
def IsHalfway (digits : ℕ) (q : ℚ) : Prop := ∃ n : ℤ, q = (n + 1 / 2) * 10 ^ digitPlace digits q

section Whole

variable {q r : ℚ} {n : ℤ}

theorem nearestInt_of_nonneg (hq : 0 ≤ q) : nearestInt q = ⌊q + 1 / 2⌋ := if_pos hq

@[simp]
theorem nearestInt_intCast (n : ℤ) : nearestInt n = n := by
  unfold nearestInt
  split
  · rw [Int.floor_intCast_add, Int.floor_eq_zero_iff.mpr (by norm_num), add_zero]
  · rw [sub_eq_add_neg, Int.ceil_intCast_add, Int.ceil_eq_zero_iff.mpr (by norm_num), add_zero]

@[simp]
theorem nearestInt_zero : nearestInt 0 = 0 := nearestInt_intCast 0

theorem nearestInt_neg (q : ℚ) : nearestInt (-q) = -nearestInt q := by
  rcases lt_trichotomy q 0 with hq | rfl | hq
  · rw [nearestInt_of_nonneg (by linarith), nearestInt, if_neg (by linarith), ← Int.floor_neg]
    congr 1
    ring
  · simp
  · rw [nearestInt_of_nonneg hq.le, nearestInt, if_neg (by linarith), ← Int.ceil_neg]
    congr 1
    ring

theorem abs_nearestInt_sub_le (q : ℚ) : |nearestInt q - q| ≤ 1 / 2 := by
  rw [abs_le]
  unfold nearestInt
  split
  · have hle := Int.floor_le (q + 1 / 2)
    have hlt := Int.lt_floor_add_one (q + 1 / 2)
    constructor <;> linarith
  · have hle := Int.le_ceil (q - 1 / 2)
    have hlt := Int.ceil_lt_add_one (q - 1 / 2)
    constructor <;> linarith

theorem nearestInt_mono (h : q ≤ r) : nearestInt q ≤ nearestInt r := by
  unfold nearestInt
  split
  · rw [if_pos (by linarith)]
    exact Int.floor_le_floor (by linarith)
  · next hq =>
    split
    · next hr =>
      have hnonpos : ⌈q - 1 / 2⌉ ≤ 0 := Int.ceil_le.mpr (by push_cast; linarith)
      exact hnonpos.trans (Int.floor_nonneg.mpr (by linarith))
    · exact Int.ceil_le_ceil (by linarith)

theorem nearestInt_eq_iff (hq : 0 ≤ q) : nearestInt q = n ↔ n - 1 / 2 ≤ q ∧ q < n + 1 / 2 := by
  rw [nearestInt_of_nonneg hq, Int.floor_eq_iff]
  constructor <;> rintro ⟨hle, hlt⟩ <;> constructor <;> linarith

end Whole

section Place

variable {place : ℤ} {q r : ℚ}

theorem tenPow_pos (e : ℤ) : (0 : ℚ) < 10 ^ e := zpow_pos (by norm_num) e

theorem tenPow_le {d e : ℤ} (h : d ≤ e) : (10 : ℚ) ^ d ≤ 10 ^ e :=
  zpow_le_zpow_right₀ (by norm_num) h

theorem tenPow_add (d e : ℤ) : (10 : ℚ) ^ (d + e) = 10 ^ d * 10 ^ e := zpow_add₀ (by norm_num) d e

/-- A multiple of a power of ten is one of every lower power. -/
theorem exists_multiple {e : ℤ} (s : ℤ) (h : place ≤ e) :
    ∃ n : ℤ, (s : ℚ) * 10 ^ e = n * 10 ^ place := by
  obtain ⟨k, rfl⟩ : ∃ k : ℕ, e = k + place := ⟨(e - place).toNat, by omega⟩
  refine ⟨s * 10 ^ k, ?_⟩
  rw [tenPow_add, zpow_natCast]
  push_cast
  ring

/-- Half a unit of a place is a multiple of a unit of every lower place. -/
theorem exists_half_multiple {fine : ℤ} (n : ℤ) (h : fine < place) :
    ∃ m : ℤ, ((n : ℚ) + 1 / 2) * 10 ^ place = m * 10 ^ fine := by
  have hhalf : ((n : ℚ) + 1 / 2) * 10 ^ place = ((10 * n + 5 : ℤ) : ℚ) * 10 ^ (place - 1) := by
    have hplace := tenPow_add (place - 1) 1
    rw [sub_add_cancel, zpow_one] at hplace
    rw [hplace]
    push_cast
    ring
  rw [hhalf]
  exact exists_multiple _ (by omega)

theorem multiple_ne_half (m n : ℤ) : (m : ℚ) * 10 ^ place ≠ (n + 1 / 2) * 10 ^ place := by
  intro h
  have heq : ((2 * m : ℤ) : ℚ) = ((2 * n + 1 : ℤ) : ℚ) := by
    push_cast
    rw [mul_right_cancel₀ (tenPow_pos place).ne' h]
    ring
  rw [Int.cast_inj] at heq
  omega

theorem nearestAt_neg (place : ℤ) (q : ℚ) : nearestAt place (-q) = -nearestAt place q := by
  rw [nearestAt, nearestAt, neg_div, nearestInt_neg, Int.cast_neg, neg_mul]

@[simp]
theorem nearestAt_zero (place : ℤ) : nearestAt place 0 = 0 := by simp [nearestAt]

theorem nearestAt_multiple (place n : ℤ) : nearestAt place (n * 10 ^ place) = n * 10 ^ place := by
  rw [nearestAt, mul_div_cancel_right₀ _ (tenPow_pos place).ne', nearestInt_intCast]

theorem nearestAt_tenPow {e : ℤ} (h : place ≤ e) : nearestAt place (10 ^ e) = 10 ^ e := by
  obtain ⟨n, hn⟩ := exists_multiple 1 h
  rw [Int.cast_one, one_mul] at hn
  rw [hn, nearestAt_multiple]

theorem nearestAt_mono (place : ℤ) (h : q ≤ r) : nearestAt place q ≤ nearestAt place r := by
  have hpow := tenPow_pos place
  have hint := nearestInt_mono (div_le_div_of_nonneg_right h hpow.le)
  exact mul_le_mul_of_nonneg_right (Int.cast_le.mpr hint) hpow.le

theorem nearestAt_nonneg (hq : 0 ≤ q) : 0 ≤ nearestAt place q := by
  rw [← nearestAt_zero place]
  exact nearestAt_mono place hq

theorem abs_nearestAt_sub_le (place : ℤ) (q : ℚ) : |nearestAt place q - q| ≤ 10 ^ place / 2 := by
  have hpow := tenPow_pos place
  have hunit : nearestAt place q - q = (nearestInt (q / 10 ^ place) - q / 10 ^ place) * 10 ^ place := by
    rw [nearestAt, sub_mul, div_mul_cancel₀ _ hpow.ne']
  rw [hunit, abs_mul, abs_of_pos hpow]
  calc |(nearestInt (q / 10 ^ place) : ℚ) - q / 10 ^ place| * 10 ^ place
      ≤ 1 / 2 * 10 ^ place :=
        mul_le_mul_of_nonneg_right (abs_nearestInt_sub_le _) hpow.le
    _ = 10 ^ place / 2 := by ring

theorem nearestAt_eq_iff (hq : 0 ≤ q) (n : ℤ) :
    nearestAt place q = n * 10 ^ place ↔
      (n - 1 / 2) * 10 ^ place ≤ q ∧ q < (n + 1 / 2) * 10 ^ place := by
  have hpow := tenPow_pos place
  rw [nearestAt, mul_left_inj' hpow.ne', Int.cast_inj, nearestInt_eq_iff (div_nonneg hq hpow.le),
    le_div_iff₀ hpow, div_lt_iff₀ hpow]

/-- Where rounding at a lower place moves a number up to one half way between two neighbours, rounding
once more goes to the upper neighbour, while the number itself goes to the lower one. -/
theorem nearestAt_of_half {fine n : ℤ} (hfine : fine < place) (hq : 0 ≤ q)
    (hlt : q < nearestAt fine q) (hhalf : nearestAt fine q = (n + 1 / 2) * 10 ^ place) :
    nearestAt place (nearestAt fine q) = (n + 1 : ℤ) * 10 ^ place ∧
      nearestAt place q = n * 10 ^ place := by
  have hpow := tenPow_pos place
  have hunit := tenPow_le hfine.le
  have hmoved := (abs_le.mp (abs_nearestAt_sub_le fine q)).2
  constructor
  · refine (nearestAt_eq_iff (nearestAt_nonneg hq) _).mpr ?_
    rw [hhalf]
    push_cast
    constructor <;> linarith
  · refine (nearestAt_eq_iff hq n).mpr ?_
    rw [hhalf] at hlt hmoved
    constructor <;> linarith

/-- Rounding first at a lower place makes a difference just where it moves the number up to a number
half way between two neighbours. -/
theorem nearestAt_nearestAt_iff {fine : ℤ} (hfine : fine < place) (hq : 0 ≤ q) :
    nearestAt place (nearestAt fine q) = nearestAt place q ↔
      ¬(q < nearestAt fine q ∧ ∃ n : ℤ, nearestAt fine q = (n + 1 / 2) * 10 ^ place) := by
  constructor
  · rintro heq ⟨hlt, n, hhalf⟩
    obtain ⟨hup, hdown⟩ := nearestAt_of_half hfine hq hlt hhalf
    rw [hup, hdown, mul_left_inj' (tenPow_pos place).ne', Int.cast_inj] at heq
    omega
  · intro hmoved
    obtain ⟨n, hn⟩ : ∃ n : ℤ, nearestAt place q = n * 10 ^ place := ⟨_, rfl⟩
    obtain ⟨hlow, hhigh⟩ := (nearestAt_eq_iff hq n).mp hn
    -- both bounds of the numbers that go to `n` are multiples of the lower power
    obtain ⟨low, hlowMultiple⟩ := exists_half_multiple (n - 1) hfine
    obtain ⟨high, hhighMultiple⟩ := exists_half_multiple n hfine
    have hlowEq : ((n : ℚ) - 1 / 2) * 10 ^ place = low * 10 ^ fine := by
      rw [← hlowMultiple]
      push_cast
      ring
    have hlowKept := nearestAt_mono fine hlow
    have hhighKept := nearestAt_mono fine hhigh.le
    rw [hlowEq, nearestAt_multiple, ← hlowEq] at hlowKept
    rw [hhighMultiple, nearestAt_multiple, ← hhighMultiple] at hhighKept
    rw [hn, nearestAt_eq_iff (nearestAt_nonneg hq)]
    refine ⟨hlowKept, lt_of_le_of_ne hhighKept fun hhalf => hmoved ⟨?_, n, hhalf⟩⟩
    rwa [hhalf]

end Place

section Digits

variable {digits : ℕ} {place e : ℤ} {q : ℚ}

theorem tenPow_le_abs_iff (hq : q ≠ 0) : (10 : ℚ) ^ e ≤ |q| ↔ e ≤ Int.log 10 |q| := by
  have h := Int.zpow_le_iff_le_log (b := 10) (x := e) (by decide) (abs_pos.mpr hq)
  rwa [Nat.cast_ofNat] at h

theorem abs_lt_tenPow_iff (hq : q ≠ 0) : |q| < 10 ^ e ↔ Int.log 10 |q| < e := by
  have h := Int.lt_zpow_iff_log_lt (b := 10) (x := e) (by decide) (abs_pos.mpr hq)
  rwa [Nat.cast_ofNat] at h

theorem digitPlace_neg (digits : ℕ) (q : ℚ) : digitPlace digits (-q) = digitPlace digits q := by
  rw [digitPlace, digitPlace, abs_neg]

theorem nearest_neg (digits : ℕ) (q : ℚ) : nearest digits (-q) = -nearest digits q := by
  rw [nearest, nearest, digitPlace_neg, nearestAt_neg]

@[simp]
theorem nearest_zero (digits : ℕ) : nearest digits 0 = 0 := nearestAt_zero _

theorem isHalfway_neg : IsHalfway digits (-q) ↔ IsHalfway digits q := by
  have hneg {r : ℚ} (h : IsHalfway digits r) : IsHalfway digits (-r) := by
    obtain ⟨n, hn⟩ := h
    refine ⟨-n - 1, ?_⟩
    rw [digitPlace_neg]
    push_cast
    linear_combination -hn
  exact ⟨fun h => neg_neg q ▸ hneg h, hneg⟩

/-- A number of some digits is a multiple of the unit of its last one. -/
theorem HasDigits.exists_multiple (h : HasDigits digits q) (hplace : place ≤ digitPlace digits q) :
    ∃ n : ℤ, q = n * 10 ^ place := by
  rcases eq_or_ne q 0 with rfl | hq
  · exact ⟨0, by simp⟩
  obtain ⟨s, e, hs, rfl⟩ := h
  refine Decimal.exists_multiple s (hplace.trans ?_)
  have hlt : |(s : ℚ) * 10 ^ e| < 10 ^ ((digits : ℤ) + e) := by
    rw [abs_mul, abs_of_pos (tenPow_pos e), tenPow_add, zpow_natCast]
    exact mul_lt_mul_of_pos_right (by exact_mod_cast hs) (tenPow_pos e)
  rw [abs_lt_tenPow_iff hq] at hlt
  unfold digitPlace
  omega

theorem HasDigits.nearestAt_eq (h : HasDigits digits q) (hplace : place ≤ digitPlace digits q) :
    nearestAt place q = q := by
  obtain ⟨n, hn⟩ := h.exists_multiple hplace
  rw [hn, nearestAt_multiple]

theorem HasDigits.nearest_eq (h : HasDigits digits q) : nearest digits q = q :=
  h.nearestAt_eq le_rfl

theorem HasDigits.not_isHalfway (h : HasDigits digits q) : ¬IsHalfway digits q := by
  rintro ⟨n, hn⟩
  obtain ⟨m, hm⟩ := h.exists_multiple le_rfl
  exact multiple_ne_half m n (hm.symm.trans hn)

/-- Rounding at a place that is not above that of a digit is exact to half a unit of this digit. -/
theorem abs_nearestAt_sub_le_unit (hplace : place ≤ digitPlace digits q) :
    |nearestAt place q - q| ≤ 10 ^ digitPlace digits q / 2 :=
  (abs_nearestAt_sub_le place q).trans (div_le_div_of_nonneg_right (tenPow_le hplace) (by norm_num))

theorem digitPlace_lt {more : ℕ} (h : digits < more) (q : ℚ) :
    digitPlace more q < digitPlace digits q := by
  unfold digitPlace
  omega

theorem HasDigits.mono {more : ℕ} (h : HasDigits digits q) (hmore : digits ≤ more) :
    HasDigits more q := by
  obtain ⟨s, e, hs, rfl⟩ := h
  exact ⟨s, e, hs.trans_le (pow_le_pow_right₀ (by norm_num) hmore), rfl⟩

theorem HasDigits.neg (h : HasDigits digits q) : HasDigits digits (-q) := by
  obtain ⟨s, e, hs, rfl⟩ := h
  exact ⟨-s, e, by rwa [abs_neg], by push_cast; ring⟩

/-- Half of a number has at most one digit more. -/
theorem HasDigits.half (h : HasDigits digits q) : HasDigits (digits + 1) (q / 2) := by
  obtain ⟨s, e, hs, rfl⟩ := h
  refine ⟨5 * s, e - 1, ?_, ?_⟩
  · have hfive : |5 * s| = 5 * |s| := abs_mul 5 s
    have hnonneg := abs_nonneg s
    rw [hfive, pow_succ]
    omega
  · have hstep := tenPow_add (e - 1) 1
    rw [sub_add_cancel, zpow_one] at hstep
    rw [hstep]
    push_cast
    ring

theorem hasDigits_tenPow (hpos : 0 < digits) (e : ℤ) : HasDigits digits (10 ^ e) := by
  refine ⟨1, e, ?_, by simp⟩
  rw [abs_one]
  exact one_lt_pow₀ (by norm_num) hpos.ne'

/-- Digits that reach the next power of ten are one digit. -/
theorem hasDigits_of_abs_le (hpos : 0 < digits) {s : ℤ} (hs : |s| ≤ 10 ^ digits) (e : ℤ) :
    HasDigits digits (s * 10 ^ e) := by
  rcases hs.lt_or_eq with hlt | heq
  · exact ⟨s, e, hlt, rfl⟩
  have hunit : HasDigits digits ((10 ^ digits : ℤ) * 10 ^ e) := by
    rw [Int.cast_pow, Int.cast_ofNat, ← zpow_natCast, ← tenPow_add]
    exact hasDigits_tenPow hpos _
  rcases (abs_eq (by positivity)).mp heq with rfl | rfl
  · exact hunit
  · rw [Int.cast_neg, neg_mul]
    exact hunit.neg

theorem tenPow_digits (digits : ℕ) (q : ℚ) :
    (10 : ℚ) ^ digits * 10 ^ digitPlace digits q = 10 ^ (Int.log 10 |q| + 1) := by
  rw [← zpow_natCast, ← tenPow_add, digitPlace]
  congr 1
  omega

theorem abs_lt_top (hq : q ≠ 0) : |q| < 10 ^ (Int.log 10 |q| + 1) :=
  (abs_lt_tenPow_iff hq).mpr (Int.lt_succ _)

/-- What is rounded at the place of a digit or above it has no more digits than stand there. -/
theorem hasDigits_nearestAt (hpos : 0 < digits) (hplace : digitPlace digits q ≤ place) :
    HasDigits digits (nearestAt place q) := by
  refine hasDigits_of_abs_le hpos ?_ _
  rcases eq_or_ne q 0 with rfl | hq
  · simp
  have hpow := tenPow_pos place
  have hlt : |q / 10 ^ place| < 10 ^ digits := by
    rw [abs_div, abs_of_pos hpow, div_lt_iff₀ hpow]
    calc |q| < 10 ^ digits * 10 ^ digitPlace digits q := by
          rw [tenPow_digits]
          exact abs_lt_top hq
      _ ≤ 10 ^ digits * 10 ^ place :=
        mul_le_mul_of_nonneg_left (tenPow_le hplace) (by positivity)
  have hup := nearestInt_mono (abs_lt.mp hlt).2.le
  have hdown := nearestInt_mono (abs_lt.mp hlt).1.le
  have hcast : (10 : ℚ) ^ digits = ((10 ^ digits : ℤ) : ℚ) := by push_cast; rfl
  rw [hcast, nearestInt_intCast] at hup
  rw [hcast, nearestInt_neg, nearestInt_intCast] at hdown
  exact abs_le.mpr ⟨hdown, hup⟩

/-- What is rounded to some digits has no more of them. -/
theorem hasDigits_nearest (hpos : 0 < digits) (q : ℚ) : HasDigits digits (nearest digits q) :=
  hasDigits_nearestAt hpos le_rfl

end Digits

section Twice

variable {digits more : ℕ} {q : ℚ}

/-- A number that is rounded to some digits keeps the places of its digits, unless it is rounded up to
the next power of ten. -/
theorem nearest_eq_tenPow_or_digitPlace_eq (digits : ℕ) (hmore : 0 < more) (hq : 0 < q) :
    nearest more q = 10 ^ (Int.log 10 |q| + 1) ∨
      digitPlace digits (nearest more q) = digitPlace digits q := by
  have hplace : digitPlace more q ≤ Int.log 10 |q| := by
    unfold digitPlace
    omega
  have hlow : (10 : ℚ) ^ Int.log 10 |q| ≤ nearest more q := by
    rw [← nearestAt_tenPow hplace]
    exact nearestAt_mono _ (((tenPow_le_abs_iff hq.ne').mpr le_rfl).trans_eq (abs_of_pos hq))
  have hhigh : nearest more q ≤ 10 ^ (Int.log 10 |q| + 1) := by
    rw [← nearestAt_tenPow (hplace.trans (Int.le_add_one le_rfl))]
    exact nearestAt_mono _ ((le_abs_self q).trans (abs_lt_top hq.ne').le)
  have hpos : 0 < nearest more q := (tenPow_pos _).trans_le hlow
  rw [← abs_of_pos hpos] at hlow
  rcases hhigh.lt_or_eq with hlt | heq
  · right
    rw [← abs_of_pos hpos, abs_lt_tenPow_iff hpos.ne'] at hlt
    rw [tenPow_le_abs_iff hpos.ne'] at hlow
    unfold digitPlace
    omega
  · exact .inl heq

/-- Rounding away from zero moves a number by at most half a unit of a digit of the result. -/
theorem abs_nearest_sub_abs_le (hmore : digits ≤ more) (hmoved : |q| < |nearest more q|) :
    |nearest more q| - |q| ≤ 10 ^ digitPlace digits (nearest more q) / 2 := by
  have hq : q ≠ 0 := by
    rintro rfl
    simp at hmoved
  have hplace : digitPlace more q ≤ digitPlace digits (nearest more q) := by
    have hlog := Int.log_mono_right (b := 10) (abs_pos.mpr hq) hmoved.le
    unfold digitPlace
    omega
  calc |nearest more q| - |q| ≤ |nearest more q - q| := abs_sub_abs_le_abs_sub _ _
    _ ≤ 10 ^ digitPlace more q / 2 := abs_nearestAt_sub_le _ q
    _ ≤ 10 ^ digitPlace digits (nearest more q) / 2 :=
      div_le_div_of_nonneg_right (tenPow_le hplace) (by norm_num)

/-- Whether it is rounded to more digits first or not, a number is rounded at the same place. -/
theorem nearest_nearest_eq_nearestAt (hpos : 0 < digits) (hmore : digits < more) (hq : 0 < q) :
    nearest digits (nearest more q) = nearestAt (digitPlace digits q) (nearest more q) ∧
      (IsHalfway digits (nearest more q) ↔
        ∃ n : ℤ, nearest more q = (n + 1 / 2) * 10 ^ digitPlace digits q) := by
  rcases nearest_eq_tenPow_or_digitPlace_eq digits (hpos.trans hmore) hq with
    htop | hplace
  · have hunit := hasDigits_tenPow hpos (Int.log 10 |q| + 1)
    have hbelow : digitPlace digits q ≤ Int.log 10 |q| + 1 := by
      unfold digitPlace
      omega
    rw [htop]
    refine ⟨hunit.nearest_eq.trans (nearestAt_tenPow hbelow).symm, ?_⟩
    refine iff_of_false hunit.not_isHalfway ?_
    rintro ⟨n, hn⟩
    obtain ⟨m, hm⟩ := exists_multiple 1 hbelow
    rw [Int.cast_one, one_mul] at hm
    exact multiple_ne_half m n (hm.symm.trans hn)
  · unfold IsHalfway
    rw [hplace]
    exact ⟨by rw [nearest, hplace], Iff.rfl⟩

/-- Rounding to more digits first makes a difference just where it moves a number away from zero to
one half way between two neighbours. -/
theorem nearest_nearest_iff (hpos : 0 < digits) (hmore : digits < more) (q : ℚ) :
    nearest digits (nearest more q) = nearest digits q ↔
      ¬(|q| < |nearest more q| ∧ IsHalfway digits (nearest more q)) := by
  wlog hq : 0 < q generalizing q
  · rcases (not_lt.mp hq).eq_or_lt with rfl | hneg
    · simp
    · have h := this (-q) (by linarith)
      rwa [nearest_neg, nearest_neg, nearest_neg, neg_inj, abs_neg, abs_neg, isHalfway_neg] at h
  obtain ⟨hplace, hhalfway⟩ := nearest_nearest_eq_nearestAt hpos hmore hq
  have hnonneg : 0 ≤ nearest more q := nearestAt_nonneg hq.le
  rw [hplace, hhalfway, abs_of_pos hq, abs_of_nonneg hnonneg]
  exact nearestAt_nearestAt_iff (digitPlace_lt hmore q) hq.le

/-- Where rounding to more digits first makes a difference, the result is a unit of the last digit
farther from zero. -/
theorem abs_nearest_nearest (hpos : 0 < digits) (hmore : digits < more)
    (hmoved : |q| < |nearest more q|) (hhalf : IsHalfway digits (nearest more q)) :
    |nearest digits (nearest more q)| = |nearest digits q| + 10 ^ digitPlace digits q := by
  wlog hq : 0 < q generalizing q
  · rcases (not_lt.mp hq).eq_or_lt with rfl | hneg
    · simp at hmoved
    · rw [← abs_neg q, ← abs_neg (nearest more q), ← nearest_neg] at hmoved
      rw [← isHalfway_neg, ← nearest_neg] at hhalf
      have h := this hmoved hhalf (by linarith)
      rwa [nearest_neg, nearest_neg, nearest_neg, abs_neg, abs_neg, digitPlace_neg] at h
  obtain ⟨hplace, hhalfway⟩ := nearest_nearest_eq_nearestAt hpos hmore hq
  have hnonneg : 0 ≤ nearest more q := nearestAt_nonneg hq.le
  obtain ⟨n, hn⟩ := hhalfway.mp hhalf
  rw [abs_of_pos hq, abs_of_nonneg hnonneg] at hmoved
  obtain ⟨hup, hdown⟩ := nearestAt_of_half (digitPlace_lt hmore q) hq.le hmoved hn
  have htwice : nearest digits (nearest more q) = (n + 1 : ℤ) * 10 ^ digitPlace digits q :=
    hplace.trans hup
  have honce : nearest digits q = n * 10 ^ digitPlace digits q := hdown
  have htwiceNonneg : 0 ≤ nearest digits (nearest more q) := nearestAt_nonneg hnonneg
  have honceNonneg : 0 ≤ nearest digits q := nearestAt_nonneg hq.le
  rw [abs_of_nonneg htwiceNonneg, abs_of_nonneg honceNonneg, htwice, honce]
  push_cast
  ring

end Twice

end TableCalc.Decimal
