import TableCalc.Decimal.Printer
import TableCalc.Proofs.Text.Digits

/-!
Positional notation. The digits around the point are the digits of one whole number, so a text is told
by that number, the number of its places and its sign. Cutting, padding and trimming the digits of a
decimal gives this notation.
-/

namespace TableCalc.Decimal

open Text (paddedDigits isDigit_of_mem_toDigits isDigit_of_mem_paddedDigits ofDigitChars_split
  ofDigitChars_lt paddedDigits_ofDigitChars toDigits_eq_cons)

/-- `n / 10 ^ places` in decimal notation, with `places` digits after the point and no point if
there are none. -/
def positional (negative : Bool) (n places : Nat) : List Char :=
  (if negative then ['-'] else []) ++ Nat.toDigits 10 (n / Text.tenPow places) ++
    (if places = 0 then [] else '.' :: paddedDigits places (n % Text.tenPow places))

/-- The digits of a number with as many of them after a point as its places say. -/
def unsignedChars (n places : Nat) : List Char :=
  Nat.toDigits 10 (n / Text.tenPow places) ++
    (if places = 0 then [] else '.' :: paddedDigits places (n % Text.tenPow places))

theorem positional_eq (negative : Bool) (n places : Nat) :
    positional negative n places =
      (if negative then ['-'] else []) ++ unsignedChars n places := by
  rw [positional, List.append_assoc, unsignedChars]

theorem mem_unsignedChars {n places : Nat} {c : Char} (hc : c ∈ unsignedChars n places) :
    c.isDigit = true ∨ c = '.' := by
  rcases List.mem_append.mp hc with hwhole | hfraction
  · exact .inl (isDigit_of_mem_toDigits hwhole)
  · split at hfraction
    · cases hfraction
    · rcases List.mem_cons.mp hfraction with rfl | hdigit
      · exact .inr rfl
      · exact .inl (isDigit_of_mem_paddedDigits hdigit)

theorem ne_of_mem_unsignedChars {n places : Nat} {c mark : Char} (hmark : mark.isDigit = false)
    (hpoint : mark ≠ '.') (hc : c ∈ unsignedChars n places) : c ≠ mark := by
  rintro rfl
  rcases mem_unsignedChars hc with hdigit | hdot
  · rw [hdigit] at hmark
    cases hmark
  · exact hpoint hdot

section Fraction

variable (n places : Nat)

/-- The digits behind the point of a number with places. -/
def fractionChars : List Char :=
  if places = 0 then [] else paddedDigits places (n % Text.tenPow places)

theorem isDigit_of_mem_fractionChars {c : Char} (hc : c ∈ fractionChars n places) :
    c.isDigit = true := by
  unfold fractionChars at hc
  split at hc
  · cases hc
  · exact isDigit_of_mem_paddedDigits hc

theorem length_fractionChars : (fractionChars n places).length = places := by
  rcases Nat.eq_zero_or_pos places with rfl | hplaces
  · rfl
  · rw [fractionChars, if_neg (by omega)]
    exact Text.length_paddedDigits hplaces (Nat.mod_lt n (Nat.pow_pos (by decide)))

theorem ofDigitChars_fractionChars :
    Nat.ofDigitChars 10 (fractionChars n places) 0 = n % Text.tenPow places := by
  rcases Nat.eq_zero_or_pos places with rfl | hplaces
  · exact (Nat.mod_one n).symm
  · rw [fractionChars, if_neg (by omega), Text.ofDigitChars_paddedDigits]

theorem unsignedChars_eq :
    unsignedChars n places = Nat.toDigits 10 (n / Text.tenPow places) ++
      (if places = 0 then [] else '.' :: fractionChars n places) := by
  unfold unsignedChars fractionChars
  split <;> rfl

/-- A number that is written with places has three parts: its sign, its whole part and as many digits
behind a point. -/
theorem positional_parts (negative : Bool) :
    positional negative n places = (if negative then ['-'] else []) ++
      Nat.toDigits 10 (n / Text.tenPow places) ++
        (if places = 0 then [] else '.' :: fractionChars n places) := by
  rw [positional_eq, unsignedChars_eq, List.append_assoc]

end Fraction

section Trimming

/-- Trimmed digits are the digits of the number that they denote. -/
theorem trimWhole_eq {ds : List Char} (hdigits : ∀ c ∈ ds, c.isDigit = true) :
    trimWhole ds = Nat.toDigits 10 (Nat.ofDigitChars 10 ds 0) := by
  rcases eq_or_ne ds [] with rfl | hne
  · rfl
  have hpadded := paddedDigits_ofDigitChars hne hdigits
  generalize Nat.ofDigitChars 10 ds 0 = n at hpadded
  -- The padding is dropped, and then nothing else unless the number is zero.
  rw [← hpadded, trimWhole, paddedDigits, List.leftpad,
    List.dropWhile_append_of_pos fun c hc => beq_iff_eq.mpr (List.eq_of_mem_replicate hc)]
  rcases eq_or_ne n 0 with rfl | hn
  · rfl
  · obtain ⟨c, rest, hchars, hc⟩ := toDigits_eq_cons hn
    rw [hchars, List.dropWhile_cons_of_neg (by simpa using hc)]

theorem trimFraction_concat {front : List Char} {last : Char} (hlast : last ≠ '0') :
    trimFraction (front ++ [last]) = front ++ [last] := by
  rw [trimFraction, List.reverse_concat, List.dropWhile_cons_of_neg (by simpa using hlast),
    List.reverse_cons, List.reverse_reverse]

end Trimming

/-- Parts that are the digits of `n`, the last `places` of them behind the point. -/
structure Parts.Denotes (parts : Parts) (n places : Nat) : Prop where
  whole : ∀ c ∈ parts.whole, c.isDigit = true
  fraction : ∀ c ∈ parts.fraction, c.isDigit = true
  length : parts.fraction.length = places
  value : Nat.ofDigitChars 10 (parts.whole ++ parts.fraction) 0 = n

namespace Parts.Denotes

variable {parts : Parts} {n places : Nat} (h : parts.Denotes n places)

include h

theorem ofDigitChars_whole : Nat.ofDigitChars 10 parts.whole 0 = n / Text.tenPow places := by
  have hlt := ofDigitChars_lt h.fraction
  rw [← h.value, ← h.length, ofDigitChars_split]
  exact (Nat.mul_add_div (Nat.pow_pos (by decide)) _ _).trans
    (by rw [Nat.div_eq_of_lt hlt, Nat.add_zero]) |>.symm

theorem ofDigitChars_fraction : Nat.ofDigitChars 10 parts.fraction 0 = n % Text.tenPow places := by
  have hlt := ofDigitChars_lt h.fraction
  rw [← h.value, ← h.length, ofDigitChars_split]
  exact ((Nat.mul_add_mod _ _ _).trans (Nat.mod_eq_of_lt hlt)).symm

theorem trimWhole_eq : trimWhole parts.whole = Nat.toDigits 10 (n / Text.tenPow places) := by
  rw [Decimal.trimWhole_eq h.whole, h.ofDigitChars_whole]

theorem fraction_eq : parts.fraction = fractionChars n places := by
  rw [fractionChars, ← h.ofDigitChars_fraction]
  split
  · next hplaces => exact List.length_eq_zero_iff.mp (h.length.trans hplaces)
  · next hplaces =>
    have hne : parts.fraction ≠ [] := by
      intro hnil
      exact hplaces (h.length.symm.trans (List.length_eq_zero_iff.mpr hnil))
    rw [← h.length, paddedDigits_ofDigitChars hne h.fraction]

end Parts.Denotes

theorem Parts.denotes_split {ds : List Char} {places : Nat} (hdigits : ∀ c ∈ ds, c.isDigit = true)
    (hplaces : places ≤ ds.length) :
    (Parts.split ds places).Denotes (Nat.ofDigitChars 10 ds 0) places where
  whole c hc := hdigits c (List.mem_of_mem_take hc)
  fraction c hc := hdigits c (List.mem_of_mem_drop hc)
  length := by
    rw [split, List.length_drop]
    omega
  value := by rw [split, List.take_append_drop]

variable (x : Decimal)

section Exact

theorem significandAt_places (h : x.exponent < 0) : x.significandAt (-x.places) = x.significand := by
  have hplaces : (x.exponent - -(x.places : Int)).toNat = 0 := by
    unfold places
    omega
  rw [significandAt, hplaces]
  exact Int.mul_one _

/-- The parts of a decimal are the digits of its significand at the last place. -/
theorem denotes_parts : x.parts.Denotes (x.significandAt (-x.places)).natAbs x.places := by
  have hdigits : ∀ c ∈ Nat.toDigits 10 x.significand.natAbs, c.isDigit = true :=
    fun _ => isDigit_of_mem_toDigits
  have hzeros (k : Nat) : ∀ c ∈ List.replicate k '0', c.isDigit = true := by
    intro c hc
    rw [List.eq_of_mem_replicate hc]
    rfl
  have hvalue : Nat.ofDigitChars 10 (Nat.toDigits 10 x.significand.natAbs) 0 = x.significand.natAbs :=
    Nat.ofDigitChars_ten_toDigits
  unfold parts
  dsimp only
  split
  · next hexponent =>
    have hplaces : x.places = 0 := by
      unfold places
      omega
    refine ⟨List.forall_mem_append.mpr ⟨hdigits, hzeros _⟩, List.forall_mem_nil _, hplaces.symm, ?_⟩
    rw [List.append_nil, Nat.ofDigitChars_append, hvalue, Nat.ofDigitChars_replicate_zero, hplaces,
      significandAt, Int.natAbs_mul, Nat.mul_comm, Int.natAbs_natCast]
    congr 3
    omega
  rw [significandAt_places x (by omega)]
  split
  · next hlt =>
    have hsplit := Parts.denotes_split hdigits (Nat.le_of_lt hlt)
    rwa [hvalue] at hsplit
  · next hge =>
    refine ⟨hzeros 1, List.forall_mem_append.mpr ⟨hzeros _, hdigits⟩, ?_, ?_⟩
    · rw [List.length_append, List.length_replicate]
      omega
    · rw [← List.append_assoc, List.singleton_append, ← List.replicate_succ, Nat.ofDigitChars_append,
        Nat.ofDigitChars_replicate_zero, Nat.mul_zero, hvalue]

/-- The digits behind the point are those of a significand, which does not end in a zero. -/
theorem fractionChars_eq_concat (h : x.places ≠ 0) :
    ∃ front last, fractionChars (x.significandAt (-x.places)).natAbs x.places = front ++ [last] ∧
      last ≠ '0' := by
  have hexponent : x.exponent < 0 := by
    unfold places at h
    omega
  have hlast : (x.significand.natAbs % Text.tenPow x.places) % 10 ≠ 0 := by
    obtain ⟨places, hsucc⟩ : ∃ p, x.places = p + 1 := ⟨x.places - 1, by omega⟩
    have hdvd : 10 ∣ Text.tenPow x.places := by
      rw [hsucc]
      exact Nat.dvd_mul_left 10 (Text.tenPow places)
    have hreduced := x.reduced
    rw [Nat.mod_mod_of_dvd _ hdvd]
    omega
  obtain ⟨front, hfront⟩ := Text.paddedDigits_eq_concat x.places
    (x.significand.natAbs % Text.tenPow x.places)
  refine ⟨front, _, ?_, mt Nat.digitChar_eq_zero.mp hlast⟩
  rw [fractionChars, if_neg h, significandAt_places x hexponent, hfront]

theorem trimFraction_parts : trimFraction x.parts.fraction =
    fractionChars (x.significandAt (-x.places)).natAbs x.places := by
  rw [x.denotes_parts.fraction_eq]
  by_cases hplaces : x.places = 0
  · rw [fractionChars, if_pos hplaces]
    rfl
  · obtain ⟨front, last, hchars, hlast⟩ := x.fractionChars_eq_concat hplaces
    rw [hchars, trimFraction_concat hlast]

theorem significandAt_eq_zero_iff {e : Int} : x.significandAt e = 0 ↔ x.significand = 0 := by
  have hpow : (Text.tenPow (x.exponent - e).toNat : Int) ≠ 0 :=
    Int.natCast_ne_zero.mpr (Nat.ne_of_gt (Nat.pow_pos (by decide)))
  rw [significandAt, Int.mul_eq_zero, or_iff_left hpow]

/-- Zero has no minus to leave out. -/
theorem isNegative_and_not_zero :
    (x.isNegative && !(trimWhole x.parts.whole == ['0'] && (trimFraction x.parts.fraction).isEmpty)) =
      x.isNegative := by
  rw [Bool.and_eq_left_iff_imp, Bool.not_eq_true']
  intro hneg
  rw [Bool.and_eq_false_imp, beq_iff_eq, x.denotes_parts.trimWhole_eq, x.trimFraction_parts]
  intro hwhole
  rw [← Bool.not_eq_true, List.isEmpty_iff, ← List.length_eq_zero_iff, length_fractionChars]
  intro hplaces
  have hzero := congrArg (Nat.ofDigitChars 10 · 0) hwhole
  rw [Nat.ofDigitChars_ten_toDigits, hplaces, Text.tenPow, Nat.pow_eq, Nat.pow_zero,
    Nat.div_one] at hzero
  have hsignificand := (x.significandAt_eq_zero_iff).mp (Int.natAbs_eq_zero.mp hzero)
  rw [isNegative, hsignificand] at hneg
  cases hneg

/-- The shortest text of a decimal is its significand in positional notation. -/
theorem canonicalChars_eq :
    x.canonicalChars = positional x.isNegative (x.significandAt (-x.places)).natAbs x.places := by
  have hempty : (fractionChars (x.significandAt (-x.places)).natAbs x.places).isEmpty = true ↔
      x.places = 0 := by
    rw [List.isEmpty_iff, ← List.length_eq_zero_iff, length_fractionChars]
  rw [positional_parts, canonicalChars, isNegative_and_not_zero, x.denotes_parts.trimWhole_eq,
    x.trimFraction_parts]
  simp only [hempty]

end Exact

end TableCalc.Decimal
