import TableCalc.Json.Printer
import TableCalc.Proofs.Text.Lines
import TableCalc.Proofs.Text.Numerals

/-!
Printed JSON is one line of text: whatever a string holds, its control characters are escaped, so
that a line feed or a carriage return never stands in the text itself.
-/

namespace TableCalc

/-- A text without control characters of ASCII. -/
def Text.Printable (cs : List Char) : Prop := ∀ c ∈ cs, 0x20 ≤ c.toNat

instance : DecidablePred Text.Printable := fun cs =>
  List.decidableBAll (fun c : Char => 0x20 ≤ c.toNat) cs

namespace Text.Printable

variable {c : Char} {cs ds : List Char}

theorem nil : Printable [] := List.forall_mem_nil _

theorem cons (hc : 0x20 ≤ c.toNat) (hcs : Printable cs) : Printable (c :: cs) :=
  List.forall_mem_cons.mpr ⟨hc, hcs⟩

theorem append (hcs : Printable cs) (hds : Printable ds) : Printable (cs ++ ds) :=
  List.forall_mem_append.mpr ⟨hcs, hds⟩

theorem mono (hds : Printable ds) (h : cs ⊆ ds) : Printable cs := fun c hc => hds c (h hc)

theorem ite {p : Prop} [Decidable p] (hcs : Printable cs) (hds : Printable ds) :
    Printable (if p then cs else ds) := by
  split <;> assumption

theorem replicate (n : Nat) (hc : 0x20 ≤ c.toNat) : Printable (List.replicate n c) := by
  intro d hd
  rw [List.eq_of_mem_replicate hd]
  exact hc

theorem ofNumeral (h : Numeral cs) : Printable cs := by
  intro c hc
  rcases h c hc with hdigit | rfl | rfl | rfl | rfl
  · simp only [Char.isDigit, Bool.and_eq_true, decide_eq_true_eq] at hdigit
    exact Nat.le_trans (by decide) (UInt32.le_iff_toNat_le.mp hdigit.1)
  all_goals decide

theorem toDigits (n : Nat) : Printable (Nat.toDigits 10 n) := ofNumeral (.toDigits n)

/-- A text without control characters can stand as a line of a text. -/
theorem isLine (h : Printable cs) : IsLine cs := by
  refine ⟨fun hmem => absurd (h _ hmem) (by decide), fun hlast => ?_⟩
  exact absurd (h _ (List.mem_of_getLast? hlast)) (by decide)

end Text.Printable

namespace Json

open Text (Printable)

theorem printable_minus (p : Prop) [Decidable p] : Printable (if p then ['-'] else []) :=
  .ofNumeral (.minus_if p)

theorem printable_intChars (n : Int) : Printable (intChars n) :=
  (printable_minus _).append (.toDigits _)

namespace Binary64

theorem printable_digitText (n : Nat) (place : Int) : Printable (digitText n place) := by
  have hdigits : Printable (Nat.toDigits 10 n) := .toDigits n
  have htake (k : Nat) : Printable ((Nat.toDigits 10 n).take k) :=
    hdigits.mono (List.take_subset ..)
  have hdrop (k : Nat) : Printable ('.' :: (Nat.toDigits 10 n).drop k) :=
    .cons (by decide) (hdigits.mono (List.drop_subset ..))
  have hzeros (k : Nat) : Printable (List.replicate k '0') := .replicate k (by decide)
  unfold digitText
  dsimp only
  split
  · exact (hdigits.append (hzeros _)).append (by decide)
  split
  · exact (htake _).append (hdrop _)
  split
  · exact .cons (by decide) (.cons (by decide) ((hzeros _).append hdigits))
  · exact (((htake 1).append (.ite .nil (hdrop 1))).append
      ((printable_minus _).cons (by decide))).append (.toDigits _)

theorem printable_chars (x : Binary64) : Printable x.chars := by
  unfold chars
  extract_lets unsigned
  have hunsigned : Printable unsigned := .ite (by decide) (printable_digitText _ _)
  exact .ite (hunsigned.cons (by decide)) hunsigned

end Binary64

theorem printable_digitChar : ∀ n < 16, 0x20 ≤ (Nat.digitChar n).toNat := by
  decide

theorem printable_escaped (c : Char) : Printable (escaped c) := by
  have hpair {mark : Char} (hmark : 0x20 ≤ mark.toNat) : Printable ['\\', mark] :=
    .cons (by decide) (.cons hmark .nil)
  unfold escaped
  iterate 7 refine .ite (hpair (by decide)) ?_
  split
  · refine .cons (by decide) (.cons (by decide) (.cons (by decide) (.cons (by decide) ?_)))
    exact .cons (printable_digitChar _ (by omega)) (.cons (printable_digitChar _ (by omega)) .nil)
  · next h => exact .cons (Nat.le_of_not_lt h) .nil

theorem printable_quoted (s : String) : Printable (quoted s) := by
  have hescaped : Printable (s.toList.flatMap escaped) := by
    intro c hc
    obtain ⟨d, -, hd⟩ := List.mem_flatMap.mp hc
    exact printable_escaped d c hd
  exact .cons (by decide) (hescaped.append (by decide))

mutual

theorem printable_chars : ∀ json : Json, Printable json.chars
  | .null => (by decide : Printable ['n', 'u', 'l', 'l'])
  | .bool true => (by decide : Printable ['t', 'r', 'u', 'e'])
  | .bool false => (by decide : Printable ['f', 'a', 'l', 's', 'e'])
  | .int n => printable_intChars n
  | .float x => x.printable_chars
  | .string s => printable_quoted s
  | .array items =>
      .cons (by decide) ((printable_itemChars items).append (by decide))
  | .object fields =>
      .cons (by decide) ((printable_fieldChars fields).append (by decide))

theorem printable_itemChars : ∀ items : List Json, Printable (itemChars items)
  | [] => .nil
  | [item] => printable_chars item
  | item :: next :: rest =>
      (printable_chars item).append ((printable_itemChars (next :: rest)).cons (by decide))

theorem printable_fieldChars : ∀ fields : List (String × Json), Printable (fieldChars fields)
  | [] => .nil
  | [(name, value)] =>
      (printable_quoted name).append ((printable_chars value).cons (by decide))
  | (name, value) :: next :: rest =>
      ((printable_quoted name).append ((printable_chars value).cons (by decide))).append
        ((printable_fieldChars (next :: rest)).cons (by decide))

end

end Json

end TableCalc
