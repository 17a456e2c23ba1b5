import TableCalc.Proofs.Decimal.Positional
import TableCalc.Proofs.Decimal.Scaling

/-!
Rounding on digits. Cutting digits off divides by a power of ten, the first digit that is cut off tells
on which side of a half the rest lies, and the carry adds one.
-/

namespace TableCalc.Decimal

open Text (ofDigitChars_split ofDigitChars_concat ofDigitChars_lt digitChar_of_isDigit toNat_sub_lt_ten)

section Carry

theorem nextDigit_digitChar :
    ∀ n < 9, Char.ofNat ((Nat.digitChar n).toNat + 1) = Nat.digitChar (n + 1) := by
  decide

/-- A digit other than nine has a digit after it. -/
theorem nextDigit_eq {c : Char} (hc : c.isDigit = true) (hnine : c ≠ '9') :
    c.toNat - 48 < 9 ∧ Char.ofNat (c.toNat + 1) = Nat.digitChar (c.toNat - 48 + 1) := by
  have hchar := digitChar_of_isDigit hc
  have hten := toNat_sub_lt_ten hc
  have hlt : c.toNat - 48 < 9 := by
    refine Nat.lt_of_le_of_ne (Nat.le_of_lt_succ hten) fun heq => hnine ?_
    rw [← hchar, heq]
    rfl
  have hnext := nextDigit_digitChar _ hlt
  rw [hchar] at hnext
  exact ⟨hlt, hnext⟩

variable {ds : List Char} (hdigits : ∀ c ∈ ds, c.isDigit = true)

theorem length_le_increment (ds : List Char) : ds.length ≤ (increment ds).length := by
  induction ds with
  | nil => exact Nat.zero_le _
  | cons digit rest ih =>
    unfold increment
    split
    · exact Nat.succ_le_succ ih
    · exact Nat.le_refl _

include hdigits

theorem isDigit_of_mem_increment : ∀ c ∈ increment ds, c.isDigit = true := by
  induction ds with
  | nil => exact List.forall_mem_singleton.mpr rfl
  | cons digit rest ih =>
    obtain ⟨hdigit, hrest⟩ := List.forall_mem_cons.mp hdigits
    unfold increment
    split
    · exact List.forall_mem_cons.mpr ⟨rfl, ih hrest⟩
    · next hnine =>
      obtain ⟨hlt, hnext⟩ := nextDigit_eq hdigit hnine
      refine List.forall_mem_cons.mpr ⟨?_, hrest⟩
      rw [hnext, Nat.isDigit_digitChar]
      exact decide_eq_true (Nat.succ_lt_succ hlt)

/-- The carry adds one to the number that the digits denote, the last digit first. -/
theorem ofDigitChars_increment :
    Nat.ofDigitChars 10 (increment ds).reverse 0 = Nat.ofDigitChars 10 ds.reverse 0 + 1 := by
  induction ds with
  | nil => rfl
  | cons digit rest ih =>
    obtain ⟨hdigit, hrest⟩ := List.forall_mem_cons.mp hdigits
    unfold increment
    split
    · next hnine =>
      have hnines : digit.toNat - 48 = 9 := by
        rw [hnine]
        rfl
      rw [List.reverse_cons, List.reverse_cons, ofDigitChars_concat, ofDigitChars_concat, ih hrest,
        hnines]
      exact Nat.mul_add 10 _ 1
    · next hnine =>
      obtain ⟨hlt, hnext⟩ := nextDigit_eq hdigit hnine
      have hvalue : (Nat.digitChar (digit.toNat - 48 + 1)).toNat - 48 = digit.toNat - 48 + 1 :=
        Nat.toNat_digitChar_sub_48_of_lt_ten (Nat.succ_lt_succ hlt)
      rw [List.reverse_cons, List.reverse_cons, ofDigitChars_concat, ofDigitChars_concat, hnext,
        hvalue, Nat.add_assoc]

end Carry

section Halves

theorem roundDiv_mul_right {k : Nat} (hk : 0 < k) (n d : Nat) :
    roundDiv (n * k) (d * k) = roundDiv n d := by
  rw [roundDiv, roundDiv, ← Nat.mul_assoc, ← Nat.mul_assoc, ← Nat.add_mul, Nat.mul_div_mul_right _ _ hk]

/-- Whether a number with a digit behind the point rounds up is told by this digit, whatever stands
after it. -/
theorem roundDiv_digit {n digit rest unit : Nat} (hdigit : digit < 10) (hrest : rest < unit) :
    roundDiv (10 * unit * n + (unit * digit + rest)) (10 * unit) =
      n + if 5 ≤ digit then 1 else 0 := by
  have hnumerator : 2 * (10 * unit * n + (unit * digit + rest)) + 10 * unit =
      2 * (10 * unit) * n + (2 * (unit * digit) + 2 * rest + 10 * unit) := by ring
  rw [roundDiv, hnumerator, Nat.mul_add_div (by omega)]
  congr 1
  split
  · next hfive =>
    have hlow := Nat.mul_le_mul_left unit hfive
    have hhigh := Nat.mul_le_mul_left unit (Nat.le_of_lt_succ hdigit)
    exact Nat.div_eq_of_lt_le (by omega) (by omega)
  · next hfour =>
    have hhigh := Nat.mul_le_mul_left unit (Nat.le_of_lt_succ (Nat.lt_of_not_le hfour))
    exact Nat.div_eq_of_lt (by omega)

theorem five_le_iff {c : Char} : '5' ≤ c ↔ 5 ≤ c.toNat - 48 := by
  have hle : '5' ≤ c ↔ 53 ≤ c.toNat := UInt32.le_iff_toNat_le
  rw [hle]
  omega

variable (whole fraction : List Char) {rest : List Char} {digit : Char}

/-- Where the digits from one on are cut off, that digit tells the side of the half. -/
theorem roundDiv_cut (hdigit : digit.isDigit = true) (hrest : ∀ c ∈ rest, c.isDigit = true) :
    roundDiv (Nat.ofDigitChars 10 (whole ++ (fraction ++ digit :: rest)) 0 * 10 ^ fraction.length)
        (10 ^ (fraction ++ digit :: rest).length) =
      Nat.ofDigitChars 10 (whole ++ fraction) 0 + if '5' ≤ digit then 1 else 0 := by
  have hunits : 10 ^ (fraction ++ digit :: rest).length =
      10 * 10 ^ rest.length * 10 ^ fraction.length := by
    rw [List.length_append, List.length_cons, Nat.pow_add, Nat.pow_succ]
    ring
  have hvalue : Nat.ofDigitChars 10 (whole ++ (fraction ++ digit :: rest)) 0 =
      10 * 10 ^ rest.length * Nat.ofDigitChars 10 (whole ++ fraction) 0 +
        (10 ^ rest.length * (digit.toNat - 48) + Nat.ofDigitChars 10 rest 0) := by
    have hsplit := ofDigitChars_split [digit] rest
    have hone : Nat.ofDigitChars 10 [digit] 0 = digit.toNat - 48 := Nat.zero_add _
    rw [← List.append_assoc, ofDigitChars_split, List.length_cons, Nat.pow_succ',
      ← List.singleton_append, hsplit, hone]
  rw [hunits, roundDiv_mul_right (Nat.pow_pos (by decide)), hvalue,
    roundDiv_digit (toNat_sub_lt_ten hdigit) (ofDigitChars_lt hrest)]
  simp only [five_le_iff]

/-- Where every digit is kept, there is nothing to round. -/
theorem roundDiv_padded (more : Nat) :
    roundDiv (Nat.ofDigitChars 10 (whole ++ fraction) 0 * 10 ^ (fraction.length + more))
        (10 ^ fraction.length) =
      Nat.ofDigitChars 10 (whole ++ (fraction ++ List.replicate more '0')) 0 := by
  have hone := roundDiv_mul_right (Nat.pow_pos (by decide : 0 < 10))
    (Nat.ofDigitChars 10 (whole ++ fraction) 0 * 10 ^ more) 1 (k := 10 ^ fraction.length)
  rw [Nat.one_mul, roundDiv_one, Nat.mul_assoc, ← Nat.pow_add, Nat.add_comm more] at hone
  rw [hone, ← List.append_assoc, Nat.ofDigitChars_append (l := whole ++ fraction),
    Nat.ofDigitChars_replicate_zero, Nat.mul_comm]

end Halves

variable (x : Decimal) (places : Nat)

theorem isDigit_of_mem_cutDigits : ∀ c ∈ x.cutDigits places, c.isDigit = true := by
  have h := x.denotes_parts
  refine List.forall_mem_append.mpr ⟨h.whole, List.forall_mem_append.mpr
    ⟨fun c hc => h.fraction c (List.mem_of_mem_take hc), fun c hc => ?_⟩⟩
  rw [List.eq_of_mem_replicate hc]
  rfl

theorem le_length_cutDigits : places ≤ (x.cutDigits places).length := by
  simp only [cutDigits, List.length_append, List.length_take, List.length_replicate]
  omega

/-- The digits that are kept and the digit that is tested give the nearest whole number of units of the
last place. -/
theorem ofDigitChars_cutDigits :
    Nat.ofDigitChars 10 (x.cutDigits places) 0 + (if x.roundsUp places then 1 else 0) =
      roundDiv ((x.significandAt (-x.places)).natAbs * 10 ^ places) (10 ^ x.places) := by
  have h := x.denotes_parts
  have hfraction := h.fraction
  rw [cutDigits, roundsUp, ← h.value, ← h.length]
  generalize x.parts.whole = whole
  generalize x.parts.fraction = fraction at hfraction
  rcases Nat.lt_or_ge places fraction.length with hcut | hkept
  · have hsplit : fraction = fraction.take places ++ fraction[places] :: fraction.drop (places + 1) := by
      rw [← List.drop_eq_getElem_cons hcut, List.take_append_drop]
    have hlength : (fraction.take places).length = places := List.length_take_of_le hcut.le
    have hrest : ∀ c ∈ fraction.drop (places + 1), c.isDigit = true := fun c hc =>
      hfraction c (List.mem_of_mem_drop hc)
    have hround := roundDiv_cut whole (fraction.take places) (hfraction _ (List.getElem_mem hcut)) hrest
    rw [← hsplit, hlength] at hround
    rw [hround, Nat.sub_eq_zero_of_le hcut.le, List.replicate_zero, List.append_nil,
      List.getElem?_eq_getElem hcut, Option.any_some]
    simp only [decide_eq_true_eq]
  · obtain ⟨more, rfl⟩ := Nat.exists_eq_add_of_le hkept
    rw [roundDiv_padded, List.getElem?_eq_none hkept, Option.any_none, if_neg Bool.false_ne_true,
      List.take_of_length_le hkept, Nat.add_sub_cancel_left, Nat.add_zero]

theorem isDigit_of_mem_roundedDigits : ∀ c ∈ x.roundedDigits places, c.isDigit = true := by
  have hdigits := x.isDigit_of_mem_cutDigits places
  unfold roundedDigits
  split
  · intro c hc
    exact isDigit_of_mem_increment (fun c hc => hdigits c (List.mem_reverse.mp hc)) c
      (List.mem_reverse.mp hc)
  · exact hdigits

theorem le_length_roundedDigits : places ≤ (x.roundedDigits places).length := by
  refine (x.le_length_cutDigits places).trans ?_
  unfold roundedDigits
  split
  · have hcarried := length_le_increment (x.cutDigits places).reverse
    rwa [List.length_reverse] at hcarried ⊢
  · exact Nat.le_refl _

/-- The loop over the digits rounds to the nearest whole number of units of the last place. -/
theorem ofDigitChars_roundedDigits :
    Nat.ofDigitChars 10 (x.roundedDigits places) 0 =
      roundDiv ((x.significandAt (-x.places)).natAbs * 10 ^ places) (10 ^ x.places) := by
  rw [← ofDigitChars_cutDigits, roundedDigits]
  split
  · rw [ofDigitChars_increment fun c hc => x.isDigit_of_mem_cutDigits places c (List.mem_reverse.mp hc),
      List.reverse_reverse]
  · rfl

/-- A text of a fixed number of places is its rounded digits in positional notation. -/
theorem fixed_eq_positional {n : Nat} (hn : Nat.ofDigitChars 10 (x.roundedDigits places) 0 = n) :
    x.fixed places = .ofList (positional (x.isNegative && n != 0) n places) := by
  have hdigits := x.isDigit_of_mem_roundedDigits places
  have hparts := Parts.denotes_split hdigits (x.le_length_roundedDigits places)
  have hsign : (x.roundedDigits places).any (· != '0') = (n != 0) := by
    have hzero := Text.ofDigitChars_eq_zero_iff hdigits
    rw [hn] at hzero
    rw [Bool.eq_iff_iff, bne_iff_ne, Ne, hzero, List.any_eq_true]
    simp
  rw [hn] at hparts
  rw [fixed, hsign, hparts.trimWhole_eq, hparts.fraction_eq, positional_parts]

end TableCalc.Decimal
