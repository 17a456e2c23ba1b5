import TableCalc.Decimal.Reader
import TableCalc.Proofs.Decimal.Values
import TableCalc.Proofs.Text.Digits

/-!
The form of decimal texts, and what they denote. Each relation is between a part of a text and a
number: a sign, digits with a point among them, an exponent behind its mark. Reading cuts a text at the
first mark and then at the first point, whatever stands around them; no part of this form holds a mark
or a point of another one, so the cuts find the parts, and texts of another form leave a part that is
refused.
-/

namespace TableCalc.Decimal

namespace Grammar

/-- ASCII digits, any number of them. -/
def Digits (cs : List Char) : Prop := ∀ c ∈ cs, c.isDigit = true

/-- A sign or none, and the factor that it stands for. -/
inductive Sign : List Char → ℤ → Prop where
  | none : Sign [] 1
  | plus : Sign ['+'] 1
  | minus : Sign ['-'] (-1)

/-- Digits, or digits around a point with at least one of them on either side. -/
inductive Mantissa : List Char → ℚ → Prop where
  | whole {ds : List Char} (hne : ds ≠ []) (hds : Digits ds) :
      Mantissa ds (Nat.ofDigitChars 10 ds 0)
  | pointed {ds fs : List Char} (hne : ds ≠ [] ∨ fs ≠ []) (hds : Digits ds) (hfs : Digits fs) :
      Mantissa (ds ++ '.' :: fs)
        (Nat.ofDigitChars 10 ds 0 + Nat.ofDigitChars 10 fs 0 / 10 ^ fs.length)

/-- The exponent of ten behind its mark; nothing stands for zero. -/
inductive Exponent : List Char → ℤ → Prop where
  | none : Exponent [] 0
  | written {mark : Char} {sign ds : List Char} {k : ℤ} (hmark : mark = 'e' ∨ mark = 'E')
      (hsign : Sign sign k) (hne : ds ≠ []) (hds : Digits ds) :
      Exponent (mark :: (sign ++ ds)) (k * Nat.ofDigitChars 10 ds 0)

/-- A number in decimal notation, with an exponent in bounds. -/
inductive Number : List Char → ℚ → Prop where
  | mk {sign ms es : List Char} {k e : ℤ} {m : ℚ} (hsign : Sign sign k) (hmantissa : Mantissa ms m)
      (hexponent : Exponent es e) (hbounds : |e| ≤ 1000) :
      Number (sign ++ (ms ++ es)) (k * m * 10 ^ e)

end Grammar

open Grammar

variable {cs sign rest : List Char} {k : ℤ}

section Signs

/-- A sign is told from what follows it, unless that begins with a sign too. -/
theorem Grammar.Sign.splitSign_append (hsign : Sign sign k)
    (hrest : ∀ c ∈ rest.head?, c ≠ '-' ∧ c ≠ '+') :
    Text.splitSign (sign ++ rest) = (decide (k < 0), rest) := by
  cases hsign with
  | none => exact Text.splitSign_eq_self hrest
  | plus => rfl
  | minus => rfl

theorem exists_sign (cs : List Char) :
    ∃ sign k, Sign sign k ∧ cs = sign ++ (Text.splitSign cs).2 ∧
      (Text.splitSign cs).1 = decide (k < 0) := by
  unfold Text.splitSign
  split
  · exact ⟨_, _, .minus, rfl, rfl⟩
  · exact ⟨_, _, .plus, rfl, rfl⟩
  · exact ⟨_, _, .none, rfl, rfl⟩

theorem Grammar.Sign.signed_eq (hsign : Sign sign k) (n : ℤ) :
    (if decide (k < 0) then -n else n) = k * n := by
  cases hsign with
  | none => exact (one_mul n).symm
  | plus => exact (one_mul n).symm
  | minus => exact (neg_one_mul n).symm

theorem Grammar.Digits.no_sign (hds : Digits cs) : ∀ c ∈ cs.head?, c ≠ '-' ∧ c ≠ '+' :=
  fun c hc => Text.ne_sign_of_isDigit (hds c (List.mem_of_mem_head? hc))

end Signs

section Exponents

variable {e : ℤ}

theorem integer?_eq_some_iff :
    Text.integer? cs = some e ↔
      ∃ sign k ds, Sign sign k ∧ ds ≠ [] ∧ Digits ds ∧ cs = sign ++ ds ∧
        k * Nat.ofDigitChars 10 ds 0 = e := by
  constructor
  · intro h
    obtain ⟨sign, k, hsign, hcs, hk⟩ := exists_sign cs
    rw [Text.integer?_eq] at h
    obtain ⟨n, hn, he⟩ := Option.map_eq_some_iff.mp h
    obtain ⟨hne, hds, rfl⟩ := Text.natural?_eq_some_iff.mp hn
    rw [hk, hsign.signed_eq] at he
    exact ⟨sign, k, _, hsign, hne, hds, hcs, he⟩
  · rintro ⟨sign, k, ds, hsign, hne, hds, rfl, rfl⟩
    rw [Text.integer?_eq, hsign.splitSign_append hds.no_sign]
    dsimp only
    rw [Text.natural?_eq hne hds, Option.map_some, hsign.signed_eq]

theorem isExponentMark_iff {c : Char} : isExponentMark c = true ↔ c = 'e' ∨ c = 'E' := by
  rw [isExponentMark, Bool.or_eq_true, beq_iff_eq, beq_iff_eq]

/-- From its mark on, an exponent is read as what it denotes, unless it does not fit a word. -/
theorem readExponent?_eq_some_iff (hmark : ∀ c ∈ cs.head?, isExponentMark c = true) :
    readExponent? cs = some e ↔ Exponent cs e ∧ Text.isInt64 e = true := by
  cases cs with
  | nil =>
    constructor
    · intro h
      obtain rfl := Option.some.inj h
      exact ⟨.none, rfl⟩
    · rintro ⟨hexponent, -⟩
      cases hexponent
      rfl
  | cons mark cs =>
    rw [readExponent?, Option.filter_eq_some_iff, integer?_eq_some_iff]
    refine and_congr_left' ?_
    constructor
    · rintro ⟨sign, k, ds, hsign, hne, hds, rfl, rfl⟩
      exact .written (isExponentMark_iff.mp (hmark mark rfl)) hsign hne hds
    · intro hexponent
      cases hexponent with
      | written _ hsign hne hds => exact ⟨_, _, _, hsign, hne, hds, rfl, rfl⟩

theorem Grammar.Exponent.head (h : Exponent cs e) : ∀ c ∈ cs.head?, isExponentMark c = true := by
  cases h with
  | none =>
    intro c hc
    cases hc
  | written hmark _ _ _ =>
    intro c hc
    obtain rfl := Option.some.inj hc
    exact isExponentMark_iff.mpr hmark

end Exponents

section Mantissas

variable {m : ℚ} {ds fs : List Char}

/-- Digits on both sides of a point are together the digits of one number. -/
theorem ofDigitChars_point (ds fs : List Char) :
    (Nat.ofDigitChars 10 ds 0 : ℚ) + Nat.ofDigitChars 10 fs 0 / 10 ^ fs.length =
      (Nat.ofDigitChars 10 (ds ++ fs) 0 : ℕ) / 10 ^ fs.length := by
  have hpow : (0 : ℚ) < 10 ^ fs.length := by positivity
  rw [Text.ofDigitChars_split, Nat.cast_add, Nat.cast_mul, Nat.cast_pow, Nat.cast_ofNat, add_div,
    mul_div_cancel_left₀ _ hpow.ne']

theorem ne_point_of_isDigit {c : Char} (hc : c.isDigit = true) : (c != '.') = true := by
  rw [bne_iff_ne]
  rintro rfl
  cases hc

/-- Digits, with a point among them or not, are cut at the point. -/
theorem readMantissa?_of_digits (hne : ds ++ fs ≠ []) (hds : Digits ds) (hfs : Digits fs)
    (hrest : rest = [] ∧ fs = [] ∨ rest = '.' :: fs) :
    readMantissa? (ds ++ rest) = some (Nat.ofDigitChars 10 (ds ++ fs) 0, fs.length) := by
  have hfront : ∀ c ∈ ds, (c != '.') = true := fun c hc => ne_point_of_isDigit (hds c hc)
  have hback : ∀ c ∈ rest.head?, (c != '.') = false := by
    rcases hrest with ⟨rfl, -⟩ | rfl
    · simp
    · simp
  have hfraction : rest.drop 1 = fs := by
    rcases hrest with ⟨rfl, rfl⟩ | rfl
    · rfl
    · rfl
  have hdigits : Digits (ds ++ fs) := List.forall_mem_append.mpr ⟨hds, hfs⟩
  rw [readMantissa?, Text.takeWhile_append hfront hback, Text.dropWhile_append hfront hback, hfraction,
    Text.natural?_eq hne hdigits]
  rfl

theorem Grammar.Mantissa.readMantissa? (h : Mantissa cs m) :
    ∃ n places : ℕ, readMantissa? cs = some (n, places) ∧ m = n / 10 ^ places := by
  cases h with
  | whole hne hds =>
    have hread := readMantissa?_of_digits (List.append_ne_nil_of_left_ne_nil hne []) hds
      (List.forall_mem_nil _) (.inl ⟨rfl, rfl⟩)
    rw [List.append_nil] at hread
    exact ⟨_, _, hread, by simp⟩
  | pointed hne hds hfs =>
    have hboth := hne.elim (List.append_ne_nil_of_left_ne_nil · _)
      (List.append_ne_nil_of_right_ne_nil _ ·)
    exact ⟨_, _, readMantissa?_of_digits hboth hds hfs (.inr rfl), ofDigitChars_point _ _⟩

theorem mantissa_of_readMantissa? {n places : ℕ} (h : readMantissa? cs = some (n, places)) :
    Mantissa cs (n / 10 ^ places) := by
  obtain ⟨_, hn, heq⟩ := Option.map_eq_some_iff.mp h
  obtain ⟨rfl, rfl⟩ := Prod.mk.inj heq
  obtain ⟨hne, hdigits, rfl⟩ := Text.natural?_eq_some_iff.mp hn
  obtain ⟨hds, hfs⟩ := List.forall_mem_append.mp hdigits
  have hsplit := cs.takeWhile_append_dropWhile (p := (· != '.'))
  have hpoint := Text.stops_dropWhile (· != '.') cs
  generalize cs.takeWhile (· != '.') = ds at *
  generalize cs.dropWhile (· != '.') = rest at *
  subst hsplit
  cases rest with
  | nil =>
    rw [List.drop_nil, List.append_nil] at hne
    simpa using Mantissa.whole hne hds
  | cons c fs =>
    have hc : c = '.' := by simpa using hpoint c rfl
    subst hc
    rw [← ofDigitChars_point]
    refine .pointed ?_ hds hfs
    by_contra! hnil
    rw [hnil.1] at hne
    exact hne hnil.2

theorem Grammar.Mantissa.mem (h : Mantissa cs m) : ∀ c ∈ cs, c.isDigit = true ∨ c = '.' := by
  cases h with
  | whole _ hds => exact fun c hc => .inl (hds c hc)
  | pointed _ hds hfs =>
    intro c hc
    rcases List.mem_append.mp hc with hwhole | hfraction
    · exact .inl (hds c hwhole)
    · rcases List.mem_cons.mp hfraction with rfl | hdigit
      · exact .inr rfl
      · exact .inl (hfs c hdigit)

theorem Grammar.Mantissa.ne_nil (h : Mantissa cs m) : cs ≠ [] := by
  cases h with
  | whole hne _ => exact hne
  | pointed _ _ _ => exact List.append_ne_nil_of_right_ne_nil _ (List.cons_ne_nil _ _)

/-- No sign stands in front of a mantissa, whatever follows it. -/
theorem Grammar.Mantissa.no_sign (h : Mantissa cs m) :
    ∀ c ∈ (cs ++ rest).head?, c ≠ '-' ∧ c ≠ '+' := by
  intro c hc
  rw [List.head?_append_of_ne_nil _ h.ne_nil] at hc
  rcases h.mem c (List.mem_of_mem_head? hc) with hdigit | rfl
  · exact Text.ne_sign_of_isDigit hdigit
  · decide

/-- No mark of an exponent stands in a mantissa. -/
theorem Grammar.Mantissa.no_mark (h : Mantissa cs m) : ∀ c ∈ cs, (!isExponentMark c) = true := by
  intro c hc
  rw [Bool.not_eq_true', ← Bool.not_eq_true, isExponentMark_iff]
  rintro (rfl | rfl)
  · exact absurd (h.mem _ hc) (by decide)
  · exact absurd (h.mem _ hc) (by decide)

end Mantissas

section Characters

variable {e : ℤ} {q : ℚ} {c : Char}

theorem Grammar.Sign.mem (h : Sign cs k) (hc : c ∈ cs) : c = '+' ∨ c = '-' := by
  cases h with
  | none => cases hc
  | plus => exact .inl (List.mem_singleton.mp hc)
  | minus => exact .inr (List.mem_singleton.mp hc)

theorem Grammar.Exponent.mem (h : Exponent cs e) (hc : c ∈ cs) :
    c.isDigit = true ∨ c = '+' ∨ c = '-' ∨ c = 'e' ∨ c = 'E' := by
  cases h with
  | none => cases hc
  | written hmark hsign _ hds =>
    rcases List.mem_cons.mp hc with rfl | hrest
    · exact .inr (.inr (.inr hmark))
    · rcases List.mem_append.mp hrest with hs | hdigit
      · exact .inr ((hsign.mem hs).imp_right .inl)
      · exact .inl (hds c hdigit)

theorem Grammar.Number.mem (h : Number cs q) (hc : c ∈ cs) :
    c.isDigit = true ∨ c = '+' ∨ c = '-' ∨ c = '.' ∨ c = 'e' ∨ c = 'E' := by
  obtain ⟨hsign, hmantissa, hexponent, -⟩ := h
  rw [List.mem_append, List.mem_append] at hc
  rcases hc with hs | hm | he
  · exact .inr ((hsign.mem hs).imp_right .inl)
  · exact (hmantissa.mem c hm).imp_right fun hpoint => .inr (.inr (.inl hpoint))
  · rcases hexponent.mem he with hdigit | hplus | hminus | hmark
    · exact .inl hdigit
    · exact .inr (.inl hplus)
    · exact .inr (.inr (.inl hminus))
    · exact .inr (.inr (.inr (.inr hmark)))

theorem Grammar.Number.ne_nil (h : Number cs q) : cs ≠ [] := by
  obtain ⟨-, hmantissa, -, -⟩ := h
  exact List.append_ne_nil_of_right_ne_nil _ (List.append_ne_nil_of_left_ne_nil hmantissa.ne_nil _)

end Characters

section Numbers

variable {s : String} {x : Decimal} {q : ℚ}

theorem isInt64_of_abs_le {e : ℤ} (h : |e| ≤ 1000) : Text.isInt64 e = true := by
  rw [abs_le] at h
  rw [Text.isInt64, Bool.and_eq_true, decide_eq_true_iff, decide_eq_true_iff]
  unfold Text.minInt64 Text.maxInt64
  omega

/-- The significand and the exponent of a number are those of its parts. -/
theorem value_read (k e : ℤ) (n places : ℕ) :
    ((scaled (k * n) (e - places)).roundToDigits workingDigits).value =
      nearest workingDigits (k * (n / 10 ^ places) * 10 ^ e) := by
  rw [value_roundToDigits, value_scaled, sub_eq_add_neg, tenPow_add, zpow_neg, zpow_natCast]
  congr 1
  push_cast
  ring

/-- What has the form of a number is read as the number that it denotes, rounded. -/
theorem Grammar.Number.read (h : Number (Text.trim s.toList) q) :
    ∃ x, read s = .ok x ∧ x.value = nearest workingDigits q := by
  generalize htext : Text.trim s.toList = text at h
  cases h with
  | @mk sign ms es k e m hsign hmantissa hexponent hbounds =>
  have hmark : ∀ c ∈ es.head?, (!isExponentMark c) = false := by
    intro c hc
    rw [hexponent.head c hc]
    rfl
  have hexp := (readExponent?_eq_some_iff hexponent.head).mpr ⟨hexponent, isInt64_of_abs_le hbounds⟩
  obtain ⟨n, places, hread, rfl⟩ := hmantissa.readMantissa?
  have hin : ¬ maxExponent < e.natAbs := by
    rw [Int.abs_eq_natAbs] at hbounds
    unfold maxExponent
    omega
  refine ⟨_, ?_, value_read k e n places⟩
  rw [Decimal.read, htext, hsign.splitSign_append hmantissa.no_sign]
  dsimp only
  rw [Text.dropWhile_append hmantissa.no_mark hmark, Text.takeWhile_append hmantissa.no_mark hmark,
    hexp, hread]
  dsimp only
  rw [if_neg hin, hsign.signed_eq]

/-- Only what has the form of a number is read. -/
theorem number_of_read (h : read s = .ok x) : ∃ q, Number (Text.trim s.toList) q := by
  unfold read at h
  dsimp only at h
  obtain ⟨sign, k, hsign, htext, -⟩ := exists_sign (Text.trim s.toList)
  generalize (Text.splitSign (Text.trim s.toList)).2 = unsigned at h htext
  have hsplit := unsigned.takeWhile_append_dropWhile (p := (!isExponentMark ·))
  have hmark : ∀ c ∈ (unsigned.dropWhile (!isExponentMark ·)).head?, isExponentMark c = true := by
    intro c hc
    simpa using Text.stops_dropWhile (!isExponentMark ·) unsigned c hc
  split at h
  · cases h
  · next e hexp =>
    split at h
    · cases h
    · next hin =>
      split at h
      · cases h
      · next n places hmantissa =>
        have hexponent := ((readExponent?_eq_some_iff hmark).mp hexp).1
        have hbounds : |e| ≤ 1000 := by
          rw [Int.abs_eq_natAbs]
          unfold maxExponent at hin
          omega
        rw [htext, ← hsplit]
        exact ⟨_, .mk hsign (mantissa_of_readMantissa? hmantissa) hexponent hbounds⟩

end Numbers

end TableCalc.Decimal
