import TableCalc.Proofs.Decimal.Canonical
import TableCalc.Proofs.Decimal.Rounded
import TableCalc.Proofs.Decimal.Values

/-!
The numbers that decimal texts denote. What is written with a number of places denotes a whole number
of units of the last place, and has one form: a minus just below zero, no zero in front of another digit,
and as many digits behind the point as there are places.
-/

namespace TableCalc.Decimal

open Text (paddedDigits toDigits_eq_cons isDigit_of_mem_toDigits isDigit_of_mem_paddedDigits)

section Notation

/-- The number that digits denote, with a point among them or not. -/
def unsignedValue (cs : List Char) : ℚ :=
  let whole := cs.takeWhile (· != '.')
  let fraction := (cs.dropWhile (· != '.')).drop 1
  Nat.ofDigitChars 10 whole 0 + Nat.ofDigitChars 10 fraction 0 / 10 ^ fraction.length

/-- The number that a text in decimal notation denotes. -/
def denoted : List Char → ℚ
  | '-' :: cs => -unsignedValue cs
  | cs => unsignedValue cs

/-- Digits of which the first is no zero, unless it is the only one. -/
def IsWhole (cs : List Char) : Prop :=
  (∀ c ∈ cs, c.isDigit = true) ∧ ∃ c rest, cs = c :: rest ∧ (c = '0' → rest = [])

theorem isWhole_toDigits (n : ℕ) : IsWhole (Nat.toDigits 10 n) := by
  refine ⟨fun _ => isDigit_of_mem_toDigits, ?_⟩
  rcases eq_or_ne n 0 with rfl | hn
  · exact ⟨'0', [], rfl, fun _ => rfl⟩
  · obtain ⟨c, rest, hdigits, hc⟩ := toDigits_eq_cons hn
    exact ⟨c, rest, hdigits, fun hzero => absurd hzero hc⟩

end Notation

section Positional

variable (negative : Bool) (n places : ℕ)

theorem unsignedValue_unsignedChars : unsignedValue (unsignedChars n places) = n / 10 ^ places := by
  have hpow : (0 : ℚ) < 10 ^ places := by positivity
  have hparts : ((n / Text.tenPow places : ℕ) : ℚ) * 10 ^ places + (n % Text.tenPow places : ℕ) = n := by
    have hnat : n / Text.tenPow places * 10 ^ places + n % Text.tenPow places = n :=
      Nat.div_add_mod' n _
    exact_mod_cast hnat
  rw [unsignedValue, takeWhile_unsignedChars, drop_unsignedChars, Nat.ofDigitChars_ten_toDigits,
    ofDigitChars_fractionChars, length_fractionChars, eq_div_iff hpow.ne', add_mul,
    div_mul_cancel₀ _ hpow.ne']
  exact hparts

theorem denoted_unsignedChars : denoted (unsignedChars n places) = n / 10 ^ places := by
  rw [← unsignedValue_unsignedChars]
  unfold denoted
  split
  · next heq =>
    have hminus := mem_unsignedChars (heq ▸ List.mem_cons_self)
    exact absurd hminus (by decide)
  · rfl

theorem denoted_positional :
    denoted (positional negative n places) =
      (if negative then -(n : ℚ) else n) / 10 ^ places := by
  rw [positional_eq]
  cases negative with
  | false => exact denoted_unsignedChars n places
  | true =>
    change -unsignedValue (unsignedChars n places) = _
    rw [unsignedValue_unsignedChars, if_pos rfl, neg_div]

end Positional

section Canonical

/-- The form of canonical texts: an optional minus, a whole part, and where there is a fraction, a point
and digits of which the last is no zero. -/
def IsCanonicalForm (cs : List Char) : Prop :=
  ∃ (negative : Bool) (whole fraction : List Char),
    cs = (if negative then ['-'] else []) ++ whole ++ fraction ∧ IsWhole whole ∧
      (fraction = [] ∨ ∃ digits last, fraction = '.' :: (digits ++ [last]) ∧
        (∀ c ∈ digits ++ [last], c.isDigit = true) ∧ last ≠ '0')

variable (x : Decimal)

theorem denoted_canonical : denoted x.canonical.toList = x.value := by
  have hplaces : -(x.places : ℤ) ≤ x.exponent := by
    unfold places
    omega
  have hsigned := congrArg (Int.cast (R := ℚ)) (x.signed_natAbs (-x.places))
  rw [Int.cast_ite, Int.cast_neg, Int.cast_natCast] at hsigned
  rw [canonical, String.toList_ofList, canonicalChars_eq, denoted_positional, hsigned,
    ← significandAt_mul hplaces, zpow_neg, zpow_natCast]
  rfl

theorem isCanonicalForm_canonical : IsCanonicalForm x.canonical.toList := by
  rw [canonical, String.toList_ofList, canonicalChars_eq, positional_parts]
  refine ⟨_, _, _, rfl, isWhole_toDigits _, ?_⟩
  split
  · exact .inl rfl
  · next hplaces =>
    obtain ⟨front, last, hchars, hlast⟩ := x.fractionChars_eq_concat hplaces
    refine .inr ⟨front, last, by rw [hchars], ?_, hlast⟩
    rw [← hchars]
    exact fun _ => isDigit_of_mem_fractionChars _ _

end Canonical

section Fixed

variable (x : Decimal) (places : ℕ)

/-- The rounded digits are those of the nearest whole number of units of the last place. -/
theorem nearestInt_eq_roundedDigits :
    nearestInt (x.value * 10 ^ places) =
      if x.isNegative then -(Nat.ofDigitChars 10 (x.roundedDigits places) 0 : ℤ)
      else Nat.ofDigitChars 10 (x.roundedDigits places) 0 := by
  have hplaces : -(x.places : ℤ) ≤ x.exponent := by
    unfold Decimal.places
    omega
  have hvalue : x.value = (x.significandAt (-x.places) : ℚ) / 10 ^ x.places := by
    rw [← significandAt_mul hplaces, zpow_neg, zpow_natCast]
    rfl
  have hdigits : (Nat.ofDigitChars 10 (x.roundedDigits places) 0 : ℤ) =
      nearestInt ((x.significandAt (-x.places)).natAbs / 10 ^ x.places * 10 ^ places) := by
    rw [ofDigitChars_roundedDigits, cast_roundDiv (Nat.pow_pos (by decide))]
    push_cast
    rw [div_mul_eq_mul_div]
  have hsigned := x.signed_natAbs (-x.places)
  generalize (x.significandAt (-x.places)).natAbs = n at hdigits hsigned
  rw [hdigits, hvalue, ← hsigned]
  split
  · rw [← nearestInt_neg, Int.cast_neg, Int.cast_natCast, neg_div, neg_mul]
  · rw [Int.cast_natCast]

/-- A text of a fixed number of places is the text of the nearest whole number of units of the last
place. -/
theorem fixed_eq :
    x.fixed places = .ofList (positional (nearestInt (x.value * 10 ^ places) < 0)
      (nearestInt (x.value * 10 ^ places)).natAbs places) := by
  have hnearest := x.nearestInt_eq_roundedDigits places
  generalize hn : Nat.ofDigitChars 10 (x.roundedDigits places) 0 = n at hnearest
  have hsize : (nearestInt (x.value * 10 ^ places)).natAbs = n := by
    rw [hnearest]
    split <;> omega
  have hsign : (x.isNegative && n != 0) = decide (nearestInt (x.value * 10 ^ places) < 0) := by
    rw [hnearest, Bool.eq_iff_iff, Bool.and_eq_true, bne_iff_ne, decide_eq_true_iff]
    split
    · next hneg =>
      rw [and_iff_right hneg]
      omega
    · next hpos =>
      rw [Bool.not_eq_true] at hpos
      simp [hpos]
  rw [fixed_eq_positional x places hn, hsize, hsign]

/-- A number written with fixed places is the nearest whole number of units of the last place, half a
unit going away from zero: a minus just if that is below zero, a whole part without superfluous
zeros, and behind a point exactly as many digits as there are places. -/
theorem fixed_text (x : Decimal) (places : ℕ) :
    let r := nearestInt (x.value * 10 ^ places)
    denoted (x.fixed places).toList = r / 10 ^ places ∧
    ∃ whole fraction, (x.fixed places).toList = (if r < 0 then ['-'] else []) ++ whole ++
        (if places = 0 then [] else '.' :: fraction) ∧
      IsWhole whole ∧ fraction.length = places ∧ ∀ c ∈ fraction, c.isDigit = true := by
  intro r
  have hsigned : (if decide (r < 0) then -(r.natAbs : ℚ) else r.natAbs) = r := by
    rw [Nat.cast_natAbs]
    rcases lt_or_ge r 0 with hneg | hnonneg
    · rw [if_pos (decide_eq_true hneg), abs_of_neg hneg, Int.cast_neg, neg_neg]
    · rw [if_neg (by simpa using hnonneg), abs_of_nonneg hnonneg]
  rw [fixed_eq, String.toList_ofList]
  refine ⟨?_, Nat.toDigits 10 (r.natAbs / Text.tenPow places), fractionChars r.natAbs places, ?_,
    isWhole_toDigits _, length_fractionChars _ _, fun _ => isDigit_of_mem_fractionChars _ _⟩
  · rw [denoted_positional, hsigned]
  · rw [positional_parts]
    simp only [decide_eq_true_eq]
    rfl

-- A carry through every digit, and a number that rounds to zero and loses its minus.
example : (scaled 9996 (-3)).fixed 2 = "10.00" := by decide +kernel

example : (scaled (-4) (-3)).fixed 2 = "0.00" := by decide +kernel

end Fixed

end TableCalc.Decimal
