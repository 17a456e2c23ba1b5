import TableCalc.Decimal.Reader
import TableCalc.Proofs.Decimal.Positional
import TableCalc.Proofs.Decimal.Scaling
import TableCalc.Proofs.Text.Blank

/-!
The text of a decimal and the decimal that is read from it. The digits before and after the point
are the digits of one whole number, the point tells its exponent, and nothing is lost as long as the
number has no more digits than reading keeps.
-/

namespace TableCalc.Decimal

open Text (natural?_eq isDigit_of_mem_toDigits isBlank_of_isDigit isTrimmed_of_visible)

section Mantissa

variable (n places : Nat)

theorem isNotPoint_of_mem_toDigits {c : Char} (hc : c ∈ Nat.toDigits 10 n) : (c != '.') = true := by
  rw [bne_iff_ne]
  rintro rfl
  cases isDigit_of_mem_toDigits hc

theorem takeWhile_unsignedChars :
    (unsignedChars n places).takeWhile (· != '.') = Nat.toDigits 10 (n / Text.tenPow places) := by
  rw [unsignedChars_eq, Text.takeWhile_append fun _ => isNotPoint_of_mem_toDigits _]
  split <;> simp

theorem drop_unsignedChars :
    ((unsignedChars n places).dropWhile (· != '.')).drop 1 = fractionChars n places := by
  rw [unsignedChars_eq, Text.dropWhile_append (fun _ => isNotPoint_of_mem_toDigits _)
    (by split <;> simp)]
  unfold fractionChars
  split <;> rfl

/-- The digits before the point and those after it are together the digits of one number. -/
theorem ofDigitChars_places :
    Nat.ofDigitChars 10 (Nat.toDigits 10 (n / Text.tenPow places) ++ fractionChars n places) 0 = n := by
  rw [Text.ofDigitChars_split, Nat.ofDigitChars_ten_toDigits, ofDigitChars_fractionChars,
    length_fractionChars]
  exact Nat.div_add_mod n _

theorem readMantissa?_unsignedChars : readMantissa? (unsignedChars n places) = some (n, places) := by
  rw [readMantissa?, takeWhile_unsignedChars, drop_unsignedChars,
    natural?_eq (List.append_ne_nil_of_left_ne_nil Nat.toDigits_ne_nil _)
      fun _ hc => (List.mem_append.mp hc).elim isDigit_of_mem_toDigits
        (isDigit_of_mem_fractionChars n places),
    ofDigitChars_places, length_fractionChars]
  rfl

end Mantissa

variable (x : Decimal)

theorem mem_canonicalChars {c : Char} (hc : c ∈ x.canonicalChars) :
    c.isDigit = true ∨ c = '-' ∨ c = '.' := by
  rw [canonicalChars_eq, positional_eq] at hc
  rcases List.mem_append.mp hc with hsign | hunsigned
  · split at hsign
    · exact .inr (.inl (List.mem_singleton.mp hsign))
    · cases hsign
  · exact (mem_unsignedChars hunsigned).imp_right .inr

theorem isBlank_of_mem_canonicalChars {c : Char} (hc : c ∈ x.canonicalChars) :
    Text.isBlank c = false := by
  rcases x.mem_canonicalChars hc with hdigit | rfl | rfl
  · exact isBlank_of_isDigit hdigit
  · rfl
  · rfl

theorem trim_canonical : Text.trim x.canonical.toList = x.canonicalChars := by
  rw [canonical, String.toList_ofList]
  exact Text.trim_eq_self (isTrimmed_of_visible fun _ => x.isBlank_of_mem_canonicalChars)

theorem splitSign_canonicalChars :
    Text.splitSign x.canonicalChars =
      (x.isNegative, unsignedChars (x.significandAt (-x.places)).natAbs x.places) := by
  rw [canonicalChars_eq, positional_eq, unsignedChars,
    Text.splitSign_signed Nat.toDigits_ne_nil fun _ => isDigit_of_mem_toDigits, Bool.decide_eq_true]

/-- A number is its sign and its size. -/
theorem signed_natAbs (e : Int) :
    (if x.isNegative then -((x.significandAt e).natAbs : Int) else (x.significandAt e).natAbs) =
      x.significandAt e := by
  have hpow : (0 : Int) ≤ Text.tenPow (x.exponent - e).toNat := Int.natCast_nonneg _
  rw [isNegative, significandAt]
  split
  · next hneg =>
    have hle := Int.mul_nonpos_of_nonpos_of_nonneg (of_decide_eq_true hneg).le hpow
    omega
  · next hneg =>
    have hnonneg : 0 ≤ x.significand := by simpa using hneg
    have hle := Int.mul_nonneg hnonneg hpow
    omega

/-- The text of a number is read as the number, rounded as reading does. -/
theorem read_canonical_rounded : read x.canonical = .ok (x.roundToDigits workingDigits) := by
  have hmark : ∀ c ∈ unsignedChars (x.significandAt (-x.places)).natAbs x.places,
      (!isExponentMark c) = true := by
    intro c hc
    have hlower := ne_of_mem_unsignedChars (by decide : 'e'.isDigit = false) (by decide) hc
    have hupper := ne_of_mem_unsignedChars (by decide : 'E'.isDigit = false) (by decide) hc
    simp [isExponentMark, hlower, hupper]
  have hplaces : -(x.places : Int) ≤ x.exponent := by
    unfold places
    omega
  rw [read, trim_canonical, splitSign_canonicalChars]
  dsimp only
  rw [List.dropWhile_eq_nil_iff.mpr hmark, List.takeWhile_eq_self_iff.mpr hmark,
    readMantissa?_unsignedChars]
  simp only [readExponent?, signed_natAbs, Int.zero_sub]
  rw [scaled_significandAt x hplaces]
  rfl

variable {x}

/-- What is read has no more digits than the working precision. -/
theorem precision_read_le {s : String} (h : read s = .ok x) : x.precision ≤ workingDigits := by
  unfold read at h
  dsimp only at h
  split at h
  · cases h
  split at h
  · cases h
  split at h
  · cases h
  cases h
  exact precision_roundToDigits_le _ (by decide)

end TableCalc.Decimal
