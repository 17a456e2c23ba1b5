import TableCalc.Display
import TableCalc.Proofs.Decimal.Rounded

/-!
The characters that numbers are written with: digits, signs, points, colons and, in dates, a space.
-/

namespace TableCalc

/-- A text of the characters that numbers, dates and durations are written with. -/
def Text.Numeral (cs : List Char) : Prop :=
  ∀ c ∈ cs, c.isDigit = true ∨ c = '-' ∨ c = '.' ∨ c = ':' ∨ c = ' '

namespace Text.Numeral

theorem nil : Numeral [] := by
  intro c hc
  cases hc

theorem cons {c : Char} {cs : List Char} (hc : c = '-' ∨ c = '.' ∨ c = ':' ∨ c = ' ')
    (hcs : Numeral cs) : Numeral (c :: cs) :=
  List.forall_mem_cons.mpr ⟨.inr hc, hcs⟩

theorem append {cs ds : List Char} (hcs : Numeral cs) (hds : Numeral ds) : Numeral (cs ++ ds) :=
  List.forall_mem_append.mpr ⟨hcs, hds⟩

theorem minus_if (p : Prop) [Decidable p] : Numeral (if p then ['-'] else []) := by
  split
  · exact .cons (by simp) .nil
  · exact .nil

theorem toDigits (n : Nat) : Numeral (Nat.toDigits 10 n) := fun _ hc =>
  .inl (isDigit_of_mem_toDigits hc)

theorem paddedDigits (width n : Nat) : Numeral (Text.paddedDigits width n) := fun _ hc =>
  .inl (isDigit_of_mem_paddedDigits hc)

theorem positional (negative : Bool) (n places : Nat) :
    Numeral (Decimal.positional negative n places) := by
  refine ((minus_if _).append (toDigits _)).append ?_
  split
  · exact .nil
  · exact .cons (by simp) (paddedDigits _ _)

theorem canonical (x : Decimal) : Numeral x.canonical.toList := by
  rw [Decimal.canonical, String.toList_ofList, Decimal.canonicalChars_eq]
  exact positional _ _ _

theorem timestamp (t : Calendar.Timestamp) : Numeral t.chars := by
  have hyear : Numeral (Calendar.yearChars t.toDateTime.year) := by
    rw [Calendar.yearChars]
    split
    · exact .cons (by simp) (paddedDigits _ _)
    · exact paddedDigits _ _
  have hfield (mark : Char) (hmark : mark = '-' ∨ mark = '.' ∨ mark = ':' ∨ mark = ' ')
      (n : Nat) : Numeral (mark :: Text.paddedDigits 2 n) := .cons hmark (paddedDigits _ _)
  exact (((hyear.append (hfield '-' (by simp) _)).append (hfield '-' (by simp) _)).append
    (hfield ' ' (by simp) _)).append (hfield ':' (by simp) _)

theorem duration (millis : Int) : Numeral (Calendar.durationChars millis) :=
  ((minus_if _).append (paddedDigits _ _)).append (.cons (by simp) (paddedDigits _ _))

theorem fixed (x : Decimal) (places : Nat) : Numeral (x.fixed places).toList := by
  rw [Decimal.fixed_eq_positional x places rfl, String.toList_ofList]
  exact positional _ _ _

/-- Whatever text a display is asked to write, it writes a number. -/
theorem display (display : Display) (text : String) : Numeral (display.write text).toList := by
  unfold Display.write
  cases display with
  | fixed places => exact fixed _ _
  | dateTime =>
    dsimp only
    split
    · next millis _ =>
      have hchars : (toString (Calendar.Timestamp.mk millis)).toList =
          (Calendar.Timestamp.mk millis).chars := String.toList_ofList
      rw [hchars]
      exact timestamp _
    · exact canonical _
  | hoursMinutes =>
    dsimp only
    split
    · rw [Calendar.writeDuration, String.toList_ofList]
      exact duration _
    · exact canonical _

end Text.Numeral

end TableCalc
