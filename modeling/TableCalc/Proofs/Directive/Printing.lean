import TableCalc.Proofs.Directive.Operands
import TableCalc.Proofs.Directive.WellFormed
import TableCalc.Proofs.Text.Digits

/-!
References and displays as texts. What a reference is written as is read as this reference, on the
right of an equals sign and, without offsets, on its left; the same holds of displays. That is so
exactly for what a directive can mean: for references that name an axis, with positions from one on
and numbers that fit a word, and for displays within bounds.
-/

namespace TableCalc

open Directive

theorem Text.digits_toDigits (n : Nat) : Grammar.Digits (Nat.toDigits 10 n) :=
  ⟨Nat.toDigits_ne_nil, fun _ hc => isDigit_of_mem_toDigits hc⟩

/-- An address is written as a tree that means it. Zero is written without a sign, as a position. -/
theorem Address.WellFormed.exists_tree {a : Address} (h : a.WellFormed) :
    ∃ tree, Grammar.Address a.chars tree ∧ tree.Fits ∧ tree.meaning = a := by
  cases a with
  | index n =>
    obtain ⟨hpos, hword⟩ := h
    have hvalue := Nat.ofDigitChars_ten_toDigits (n := n)
    refine ⟨.index (Nat.toDigits 10 n), .index (Text.digits_toDigits n), ?_, ?_⟩
    · rw [AddressTree.Fits, hvalue]
      exact hword
    · rw [AddressTree.meaning, hvalue, if_neg (Nat.ne_of_gt hpos)]
  | offset k =>
    have hvalue := Nat.ofDigitChars_ten_toDigits (n := k.natAbs)
    rcases Int.lt_trichotomy k 0 with hneg | rfl | hpos
    · have hdistance : distance true (Nat.toDigits 10 k.natAbs) = k := by
        rw [distance, if_pos rfl, hvalue]
        omega
      refine ⟨.offset true (Nat.toDigits 10 k.natAbs), ?_, ?_, ?_⟩
      · rw [Address.chars, if_neg (Int.ne_of_lt hneg), if_pos hneg]
        exact .minus (Text.digits_toDigits _)
      · rw [AddressTree.Fits, hdistance]
        exact h
      · rw [AddressTree.meaning, hdistance]
    · exact ⟨.index ['0'], .index (Text.digits_toDigits 0), Nat.zero_le _, rfl⟩
    · have hdistance : distance false (Nat.toDigits 10 k.natAbs) = k := by
        rw [distance, if_neg Bool.false_ne_true, hvalue]
        omega
      refine ⟨.offset false (Nat.toDigits 10 k.natAbs), ?_, ?_, ?_⟩
      · rw [Address.chars, if_neg (Int.ne_of_gt hpos), if_neg (Int.not_lt.mpr (Int.le_of_lt hpos))]
        exact .plus (Text.digits_toDigits _)
      · rw [AddressTree.Fits, hdistance]
        exact h
      · rw [AddressTree.meaning, hdistance]
  | first => exact ⟨.first, .first, trivial, rfl⟩
  | last => exact ⟨.last, .last, trivial, rfl⟩
  | anchor => exact ⟨.anchor, .anchor, trivial, rfl⟩

theorem CellRef.WellFormed.exists_tree {cell : CellRef} (h : cell.WellFormed) :
    ∃ tree, Grammar.Cell cell.chars tree ∧ tree.All AddressTree.Fits ∧ tree.meaning = cell := by
  obtain ⟨hnamed, haddresses⟩ := h
  obtain ⟨row, column⟩ := cell
  cases row with
  | none =>
    cases column with
    | none => exact absurd rfl hnamed
    | some c =>
      obtain ⟨tree, hderives, hfits, rfl⟩ :=
        (haddresses c (by simp [CellRef.addresses])).exists_tree
      exact ⟨.column tree, .column hderives, hfits, rfl⟩
  | some r =>
    obtain ⟨row, hrow, hrowFits, rfl⟩ := (haddresses r (by simp [CellRef.addresses])).exists_tree
    cases column with
    | none =>
      refine ⟨.row row, ?_, hrowFits, rfl⟩
      rw [CellRef.chars, Option.elim_none, List.append_nil]
      exact .row hrow
    | some c =>
      obtain ⟨column, hcolumn, hcolumnFits, rfl⟩ :=
        (haddresses c (by simp [CellRef.addresses])).exists_tree
      exact ⟨.both row column, .both hrow hcolumn, ⟨hrowFits, hcolumnFits⟩, rfl⟩

theorem Reference.WellFormed.exists_tree {r : Reference} (h : r.WellFormed) :
    ∃ tree, Grammar.Reference r.chars tree ∧ tree.All AddressTree.Fits ∧ tree.meaning = r := by
  cases r with
  | cell c =>
    obtain ⟨tree, hderives, hfits, rfl⟩ := h.start.exists_tree
    exact ⟨.cell tree, .cell hderives, hfits, rfl⟩
  | range s f =>
    obtain ⟨start, hstart, hstartFits, rfl⟩ := h.start.exists_tree
    obtain ⟨finish, hfinish, hfinishFits, rfl⟩ := h.finish.exists_tree
    exact ⟨.range start finish, .range hstart hfinish, ⟨hstartFits, hfinishFits⟩, rfl⟩

theorem CellRef.isRelative_eq_false {cell : CellRef}
    (h : ∀ distance, .offset distance ∉ cell.addresses) : cell.isRelative = false := by
  have haddress : ∀ a ∈ cell.addresses, a.isRelative = false := by
    intro a ha
    cases a with
    | offset k => exact absurd ha (h k)
    | index | first | last | anchor => rfl
  simp only [addresses, List.mem_append, Option.mem_toList] at haddress
  rw [isRelative, Bool.or_eq_false_iff, Option.any_eq_false, Option.any_eq_false]
  exact ⟨fun a ha => by simp [haddress a (.inl ha)], fun a ha => by simp [haddress a (.inr ha)]⟩

/-- A reference is relative just if one of its addresses is an offset. -/
theorem Reference.isRelative_eq_false_iff {r : Reference} :
    r.isRelative = false ↔ ∀ distance, .offset distance ∉ r.addresses := by
  refine ⟨offset_not_mem_addresses, fun h => ?_⟩
  simp only [addresses, List.mem_append, not_or, forall_and] at h
  rw [isRelative, CellRef.isRelative_eq_false h.1, CellRef.isRelative_eq_false h.2]
  rfl

namespace Directive

variable {registry : Registry}

theorem derives_one : Grammar.Operand ['1'] (.number "1") :=
  .number (.plain (.whole ⟨by simp, by simp⟩))

/-- What is read as a reference is one that a directive can mean. -/
theorem ReadsAs.wellFormed {text : String} {r : Reference}
    (h : ReadsAs registry text (.reference r)) : r.WellFormed := by
  obtain ⟨tree, htree, hadmitted, hmeaning⟩ := readsAs_iff.mp h
  have hexpr := htree.wellFormed hadmitted
  rw [hmeaning] at hexpr
  cases hexpr with
  | reference h => exact h

theorem readsAs_toString {r : Reference} (h : r.WellFormed) :
    ReadsAs registry (toString r) (.reference r) := by
  obtain ⟨tree, hderives, hfits, rfl⟩ := h.exists_tree
  exact readsAs_of_operand (.reference hderives) hfits

/-- A formula that is read passes all that evaluation relies on. -/
theorem wellFormed_of_singleton {directive : String} {formula : Formula}
    (h : Formula.ofDirective registry directive = .ok [formula]) : formula.WellFormed registry := by
  obtain ⟨piece, tree, hpiece, hadmitted, rfl⟩ :=
    exists_tree_of_ofDirective h (List.mem_singleton_self formula)
  exact hpiece.wellFormed hadmitted

theorem ofDirective_target {r : Reference} (h : r.WellFormed) (habsolute : r.isRelative = false) :
    Formula.ofDirective registry (toString r ++ "=1") =
      .ok [⟨toString r ++ "=1", r, .literal "1", none⟩] := by
  obtain ⟨tree, hderives, hfits, rfl⟩ := h.exists_tree
  have htext : .ofList (tree.meaning.chars ++ ['='] ++ ['1']) = toString tree.meaning ++ "=1" := by
    rw [List.append_assoc, String.ofList_append]
    rfl
  rw [← htext]
  exact ofDirective_of_formula (.plain hderives (spaced_equals .nil) derives_one)
    ⟨hfits, tree.isRelative_meaning.mp habsolute, trivial, fun _ hd => nomatch hd⟩

theorem exists_display_tree {display : Display}
    (h : ∀ places, display = .fixed places → places ≤ 100) :
    ∃ tree, Grammar.Display display.chars tree ∧ tree.Admitted ∧ tree.meaning = display := by
  cases display with
  | fixed places =>
    have hvalue := Nat.ofDigitChars_ten_toDigits (n := places)
    refine ⟨.fixed (Nat.toDigits 10 places), .fixed (Text.digits_toDigits places), ?_, ?_⟩
    · rw [DisplayTree.Admitted, hvalue]
      exact h places rfl
    · rw [DisplayTree.meaning, hvalue]
  | dateTime => exact ⟨.dateTime, .dateTime, trivial, rfl⟩
  | hoursMinutes => exact ⟨.hoursMinutes, .hoursMinutes, trivial, rfl⟩

theorem ofDirective_display {display : Display}
    (h : ∀ places, display = .fixed places → places ≤ 100) :
    Formula.ofDirective registry ("@1$1=1;" ++ toString display) =
      .ok [{ assigned "1" (.literal "1") with
        source := "@1$1=1;" ++ toString display, display := some display }] := by
  obtain ⟨tree, hderives, hadmitted, rfl⟩ := exists_display_tree h
  have htext : .ofList (['@', '1', '$', '1'] ++ ['='] ++ ['1'] ++ [';'] ++ tree.meaning.chars) =
      "@1$1=1;" ++ toString tree.meaning := by
    rw [String.ofList_append]
    rfl
  have hsemicolon : Grammar.Spaced [';'] [';'] := .mk .nil .nil
  rw [← htext]
  exact ofDirective_of_formula
    (.displayed derives_firstCell (spaced_equals .nil) derives_one hsemicolon hderives)
    ⟨fits_firstCell, isAbsolute_firstCell, trivial, fun _ hd => Option.some.inj hd ▸ hadmitted⟩

end Directive

/-- What references and displays are written as is read as what they are. For references and
displays that a directive can mean, the right of an equals sign gives the reference back, the left
of it gives back any reference without offsets, and the text behind a semicolon the display; for no
others is that so. -/
theorem Reference.read_back_as_written (registry : Registry) :
    (∀ r : Reference, ReadsAs registry (toString r) (.reference r) ↔ r.WellFormed) ∧
    (∀ r : Reference,
      Formula.ofDirective registry (toString r ++ "=1") =
          .ok [⟨toString r ++ "=1", r, .literal "1", none⟩] ↔
        r.WellFormed ∧ ∀ distance, .offset distance ∉ r.addresses) ∧
    ∀ display : Display,
      Formula.ofDirective registry ("@1$1=1;" ++ toString display) =
          .ok [{ assigned "1" (.literal "1") with
            source := "@1$1=1;" ++ toString display, display := some display }] ↔
        ∀ places, display = .fixed places → places ≤ 100 := by
  refine ⟨fun r => ⟨ReadsAs.wellFormed, readsAs_toString⟩, fun r => ⟨fun h => ?_, ?_⟩,
    fun display => ⟨fun h places hplaces => ?_, ofDirective_display⟩⟩
  · have hformula := wellFormed_of_singleton h
    exact ⟨hformula.target, hformula.target_absolute⟩
  · rintro ⟨hformed, habsolute⟩
    exact ofDirective_target hformed (isRelative_eq_false_iff.mpr habsolute)
  · exact (wellFormed_of_singleton h).places places (congrArg some hplaces)

/-- Numbers at the limits of their words, the position of the computed cell itself, and an open
row. -/
theorem Reference.read_back_as_written_limits :
    let range : Reference :=
      .range ⟨some (.offset (-9223372036854775808)), some (.index 18446744073709551615)⟩
        ⟨some (.offset 9223372036854775807), some (.offset 0)⟩
    let target : Reference := .range ⟨some .anchor, none⟩ ⟨some .last, some .first⟩
    (range.WellFormed ∧
      Formula.ofDirective .empty
          "@1$1=@-9223372036854775808$18446744073709551615..@+9223372036854775807$0" =
        .ok [assigned "@-9223372036854775808$18446744073709551615..@+9223372036854775807$0"
          (.reference range)]) ∧
    (target.WellFormed ∧ (∀ distance, .offset distance ∉ target.addresses) ∧
      Formula.ofDirective .empty "@I..@>$<=1" =
        .ok [⟨"@I..@>$<=1", target, .literal "1", none⟩]) ∧
    Formula.ofDirective .empty "@1$1=1;%.100f" =
      .ok [{ assigned "1" (.literal "1") with
        source := "@1$1=1;%.100f", display := some (.fixed 100) }] := by
  intro range target
  have hrange : range.WellFormed :=
    ⟨⟨List.cons_ne_nil _ _, List.forall_mem_cons.mpr ⟨⟨by decide, by decide⟩,
        List.forall_mem_singleton.mpr ⟨by decide, by decide⟩⟩⟩,
      ⟨List.cons_ne_nil _ _, List.forall_mem_cons.mpr ⟨⟨by decide, by decide⟩,
        List.forall_mem_singleton.mpr ⟨by decide, by decide⟩⟩⟩⟩
  have htarget : target.WellFormed :=
    ⟨⟨List.cons_ne_nil _ _, List.forall_mem_singleton.mpr trivial⟩,
      ⟨List.cons_ne_nil _ _, List.forall_mem_cons.mpr ⟨trivial,
        List.forall_mem_singleton.mpr trivial⟩⟩⟩
  have habsolute : ∀ distance, .offset distance ∉ target.addresses :=
    isRelative_eq_false_iff.mp rfl
  obtain ⟨hreferences, htargets, hdisplays⟩ := read_back_as_written .empty
  refine ⟨⟨hrange, ?_⟩, ⟨htarget, habsolute, ?_⟩, ?_⟩
  · exact (hreferences range).mpr hrange
  · exact (htargets target).mpr ⟨htarget, habsolute⟩
  · exact (hdisplays (.fixed 100)).mpr fun places hplaces => by cases hplaces; decide

end TableCalc
