import Mathlib.Algebra.Group.Nat.Defs
import Mathlib.Data.List.Basic
import Mathlib.Data.List.Induction
import TableCalc.Proofs.Text.Reading
import TableCalc.Text.Basic
import TableCalc.Text.Digit

/-!
Numbers written in digits. Zeros in front do not change what is read, and a text of digits is the
text of its value, padded to its own length.
-/

namespace TableCalc.Text

theorem natural?_eq {cs : List Char} (hne : cs ≠ []) (hdigits : ∀ c ∈ cs, c.isDigit = true) :
    natural? cs = some (Nat.ofDigitChars 10 cs 0) := by
  have hall : cs.all Char.isDigit = true := List.all_eq_true.mpr hdigits
  rw [natural?, hall, if_pos]
  simpa using hne

theorem natural?_eq_some_iff {cs : List Char} {n : Nat} :
    natural? cs = some n ↔
      cs ≠ [] ∧ (∀ c ∈ cs, c.isDigit = true) ∧ Nat.ofDigitChars 10 cs 0 = n := by
  simp [natural?, and_assoc]

theorem integer?_eq (cs : List Char) :
    integer? cs = (natural? (splitSign cs).2).map fun n : Nat =>
      if (splitSign cs).1 then -(n : Int) else n := by
  rw [integer?]
  dsimp only
  cases natural? (splitSign cs).2 with
  | none => rfl
  | some n => rfl

theorem isDigit_of_mem_toDigits {n : Nat} {c : Char} (hc : c ∈ Nat.toDigits 10 n) :
    c.isDigit = true :=
  Nat.isDigit_of_mem_toDigits (by decide) (by decide) hc

section Ends

/-- The digits of a number other than zero do not begin with a zero. -/
theorem toDigits_eq_cons {n : Nat} (hn : n ≠ 0) :
    ∃ c rest, Nat.toDigits 10 n = c :: rest ∧ c ≠ '0' := by
  induction n using Nat.strongRecOn with
  | ind n ih =>
    by_cases hsmall : n < 10
    · exact ⟨_, [], Nat.toDigits_of_lt_base hsmall, mt Nat.digitChar_eq_zero.mp hn⟩
    · obtain ⟨c, rest, hdigits, hc⟩ := ih (n / 10) (by omega) (by omega)
      rw [Nat.toDigits_of_base_le (by decide) (by omega), hdigits]
      exact ⟨c, _, rfl, hc⟩

/-- The digits of a number end with its rest by ten. -/
theorem toDigits_eq_concat (n : Nat) :
    ∃ front, Nat.toDigits 10 n = front ++ [Nat.digitChar (n % 10)] := by
  by_cases hsmall : n < 10
  · exact ⟨[], by rw [Nat.toDigits_of_lt_base hsmall, Nat.mod_eq_of_lt hsmall]; rfl⟩
  · exact ⟨_, Nat.toDigits_of_base_le (by decide) (by omega)⟩

theorem paddedDigits_eq_concat (width n : Nat) :
    ∃ front, paddedDigits width n = front ++ [Nat.digitChar (n % 10)] := by
  obtain ⟨front, hfront⟩ := toDigits_eq_concat n
  rw [paddedDigits, List.leftpad, hfront, ← List.append_assoc]
  exact ⟨_, rfl⟩

end Ends

section Padded

variable {width n : Nat}

theorem isDigit_of_mem_paddedDigits {c : Char} (hc : c ∈ paddedDigits width n) :
    c.isDigit = true := by
  rcases List.mem_append.mp hc with hzero | hdigit
  · rw [List.eq_of_mem_replicate hzero]
    rfl
  · exact isDigit_of_mem_toDigits hdigit

theorem paddedDigits_ne_nil (width n : Nat) : paddedDigits width n ≠ [] :=
  List.append_ne_nil_of_right_ne_nil _ Nat.toDigits_ne_nil

theorem ofDigitChars_paddedDigits (width n : Nat) :
    Nat.ofDigitChars 10 (paddedDigits width n) 0 = n := by
  rw [paddedDigits, List.leftpad, Nat.ofDigitChars_append, Nat.ofDigitChars_replicate_zero,
    Nat.mul_zero, Nat.ofDigitChars_ten_toDigits]

@[simp]
theorem natural?_paddedDigits (width n : Nat) : natural? (paddedDigits width n) = some n := by
  rw [natural?_eq (paddedDigits_ne_nil width n) fun _ => isDigit_of_mem_paddedDigits,
    ofDigitChars_paddedDigits]

theorem length_paddedDigits (hwidth : 0 < width) (hn : n < tenPow width) :
    (paddedDigits width n).length = width := by
  rw [paddedDigits, List.length_leftpad]
  exact Nat.max_eq_left ((Nat.length_toDigits_le_iff (by decide) hwidth).mpr hn)

theorem paddedDigits_one (hn : n < 10) : paddedDigits 1 n = [Nat.digitChar n] := by
  rw [paddedDigits, Nat.toDigits_of_lt_base hn]
  rfl

/-- One more place, and one more digit. -/
theorem paddedDigits_succ (hwidth : 0 < width) {digit : Nat} (hdigit : digit < 10) :
    paddedDigits (width + 1) (10 * n + digit) = paddedDigits width n ++ [Nat.digitChar digit] := by
  rcases Nat.eq_zero_or_pos n with rfl | hn
  · obtain ⟨width, rfl⟩ : ∃ w, width = w + 1 := ⟨width - 1, by omega⟩
    simp [paddedDigits, List.leftpad, Nat.toDigits_of_lt_base hdigit, ← List.replicate_succ']
  · have hsplit := Nat.toDigits_append_toDigits (b := 10) (by decide) hn hdigit
    rw [paddedDigits, paddedDigits, List.leftpad, List.leftpad, ← hsplit,
      Nat.toDigits_of_lt_base hdigit, List.length_append, List.length_singleton,
      Nat.add_sub_add_right, List.append_assoc]

end Padded

section Value

variable {cs ds : List Char} {c : Char}

theorem toNat_sub_lt_ten (hc : c.isDigit = true) : c.toNat - 48 < 10 := by
  have hhigh : c.toNat ≤ 57 := (Char.isDigit_iff_toNat.mp hc).2
  omega

theorem digitChar_of_isDigit (hc : c.isDigit = true) : Nat.digitChar (c.toNat - 48) = c := by
  have hlow : 48 ≤ c.toNat := (Char.isDigit_iff_toNat.mp hc).1
  rw [← Char.toNat_inj, Nat.toNat_digitChar_of_lt_ten (toNat_sub_lt_ten hc)]
  omega

theorem ofDigitChars_split (ds fs : List Char) :
    Nat.ofDigitChars 10 (ds ++ fs) 0 =
      10 ^ fs.length * Nat.ofDigitChars 10 ds 0 + Nat.ofDigitChars 10 fs 0 := by
  rw [Nat.ofDigitChars_append]
  exact Nat.ofDigitChars_eq_ofDigitChars_zero

theorem ofDigitChars_concat (ds : List Char) (c : Char) :
    Nat.ofDigitChars 10 (ds ++ [c]) 0 = 10 * Nat.ofDigitChars 10 ds 0 + (c.toNat - 48) := by
  rw [Nat.ofDigitChars_append, Nat.ofDigitChars_cons, Nat.ofDigitChars_nil]
  rfl

/-- A text of digits is the text of its value, padded to its own length. -/
theorem paddedDigits_ofDigitChars (hne : ds ≠ []) (hdigits : ∀ c ∈ ds, c.isDigit = true) :
    paddedDigits ds.length (Nat.ofDigitChars 10 ds 0) = ds := by
  induction ds using List.reverseRecOn with
  | nil => exact absurd rfl hne
  | append_singleton ds c ih =>
    obtain ⟨hdigits, hc⟩ := List.forall_mem_append.mp hdigits
    have hdigit := hc c List.mem_cons_self
    have hten := toNat_sub_lt_ten hdigit
    rw [ofDigitChars_concat, List.length_append, List.length_singleton]
    rcases eq_or_ne ds [] with rfl | hds
    · rw [Nat.ofDigitChars_nil, Nat.mul_zero, Nat.zero_add, List.length_nil, Nat.zero_add,
        paddedDigits_one hten, digitChar_of_isDigit hdigit, List.nil_append]
    · rw [paddedDigits_succ (List.length_pos_iff.mpr hds) hten, ih hds hdigits,
        digitChar_of_isDigit hdigit]

theorem ofDigitChars_lt (hdigits : ∀ c ∈ ds, c.isDigit = true) :
    Nat.ofDigitChars 10 ds 0 < 10 ^ ds.length := by
  induction ds using List.reverseRecOn with
  | nil => decide
  | append_singleton ds c ih =>
    obtain ⟨hdigits, hc⟩ := List.forall_mem_append.mp hdigits
    have hten := toNat_sub_lt_ten (hc c List.mem_cons_self)
    have hlt := ih hdigits
    rw [ofDigitChars_concat, List.length_append, List.length_singleton, Nat.pow_succ]
    omega

/-- Digits denote zero just if each of them is a zero. -/
theorem ofDigitChars_eq_zero_iff (hdigits : ∀ c ∈ ds, c.isDigit = true) :
    Nat.ofDigitChars 10 ds 0 = 0 ↔ ∀ c ∈ ds, c = '0' := by
  induction ds using List.reverseRecOn with
  | nil => simp
  | append_singleton ds c ih =>
    obtain ⟨hdigits, hc⟩ := List.forall_mem_append.mp hdigits
    have hzero : c.toNat - 48 = 0 ↔ c = '0' := by
      rw [← digitChar_of_isDigit (hc c List.mem_cons_self), Nat.digitChar_eq_zero,
        digitChar_of_isDigit (hc c List.mem_cons_self)]
    rw [ofDigitChars_concat, List.forall_mem_append, List.forall_mem_singleton, ← ih hdigits,
      ← hzero]
    omega

end Value

section Sign

theorem ne_sign_of_isDigit {c : Char} (hc : c.isDigit = true) : c ≠ '-' ∧ c ≠ '+' := by
  constructor
  · rintro rfl
    cases hc
  · rintro rfl
    cases hc

theorem splitSign_eq_self {cs : List Char} (h : ∀ c ∈ cs.head?, c ≠ '-' ∧ c ≠ '+') :
    splitSign cs = (false, cs) := by
  unfold splitSign
  split
  · exact absurd rfl (h '-' rfl).1
  · exact absurd rfl (h '+' rfl).2
  · rfl

variable {digits rest : List Char} (hne : digits ≠ []) (hdigits : ∀ c ∈ digits, c.isDigit = true)

include hne hdigits

/-- A sign is told from the digits after it. -/
theorem splitSign_signed (p : Prop) [Decidable p] :
    splitSign ((if p then ['-'] else []) ++ (digits ++ rest)) = (decide p, digits ++ rest) := by
  by_cases hp : p
  · rw [if_pos hp, decide_eq_true hp]
    rfl
  · rw [if_neg hp, decide_eq_false hp, List.nil_append]
    apply splitSign_eq_self
    rw [List.head?_append_of_ne_nil _ hne]
    intro c hc
    exact ne_sign_of_isDigit (hdigits c (List.mem_of_mem_head? hc))

end Sign

section Split

variable {p : Char → Bool} {before after : List Char} {c : Char}

theorem splitFirst?_append (hbefore : ∀ d ∈ before, p d = false) (hc : p c = true) :
    splitFirst? p (before ++ c :: after) = some (before, after) := by
  induction before with
  | nil => simp [splitFirst?, hc]
  | cons d before ih =>
    rw [List.forall_mem_cons] at hbefore
    simp [splitFirst?, hbefore.1, ih hbefore.2]

theorem splitFirst?_eq_none (h : ∀ d ∈ before, p d = false) : splitFirst? p before = none := by
  induction before with
  | nil => rfl
  | cons d before ih =>
    rw [List.forall_mem_cons] at h
    simp [splitFirst?, h.1, ih h.2]

end Split

end TableCalc.Text
