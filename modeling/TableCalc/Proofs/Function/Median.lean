import Mathlib
import TableCalc.Proofs.Cell.Canonical
import TableCalc.Proofs.Decimal.Division
import TableCalc.Proofs.Function.Standard
import TableCalc.Proofs.Function.Totals

/-!
Medians. Numbers have one ascending order, whatever the order they are given in, so the middle of a
selection is told by its cells alone. Two numbers in the middle are averaged as quotients are before
they are rounded to the digits that are asked for: the mean of the two is this average, rounded once
more.
-/

namespace TableCalc

/-- Cells that are read as decimals count as what is read. -/
theorem Grid.numbers_of_reads {g : Grid} {xs : List Decimal}
    (h : g.cells.flatten.mapM Decimal.read = .ok xs) : g.numbers = xs := by
  rw [Grid.numbers, ← List.forall₂_eq_eq_eq, List.forall₂_map_left_iff]
  exact (mapM_eq_ok_iff.mp h).imp fun _ _ hread => Cell.number_eq_of_read hread

namespace Aggregate

open Decimal (HasDigits nearest quotient)

variable {xs ys sorted : List Decimal} {x y : Decimal}

section Order

/-- The same numbers in ascending order. -/
structure IsSorted (sorted xs : List Decimal) : Prop where
  perm : sorted.Perm xs
  pairwise : sorted.Pairwise fun x y => x.value ≤ y.value

theorem isLE_compare_iff : (compare x y).isLE = true ↔ x.value ≤ y.value := by
  rw [Decimal.compare_eq_compare_value, Ordering.isLE_iff_ne_gt]
  exact compare_le_iff_le

theorem isSorted_ascending (xs : List Decimal) : IsSorted (ascending xs) xs where
  perm := xs.mergeSort_perm _
  pairwise := by
    have htrans (x y z : Decimal) (hxy : (compare x y).isLE = true)
        (hyz : (compare y z).isLE = true) : (compare x z).isLE = true := by
      rw [isLE_compare_iff] at hxy hyz ⊢
      exact hxy.trans hyz
    have htotal (x y : Decimal) : ((compare x y).isLE || (compare y x).isLE) = true := by
      rw [Bool.or_eq_true, isLE_compare_iff, isLE_compare_iff]
      exact le_total x.value y.value
    exact (List.pairwise_mergeSort htrans htotal xs).imp isLE_compare_iff.mp

/-- There is but one ascending order, as numbers of one value are equal. -/
theorem IsSorted.eq (h : IsSorted sorted xs) : sorted = ascending xs := by
  have hxs := isSorted_ascending xs
  apply List.Perm.eq_of_pairwise ?_ h.pairwise hxs.pairwise (h.perm.trans hxs.perm.symm)
  intro x y _ _ hxy hyx
  exact Decimal.value_inj.mp (hxy.antisymm hyx)

theorem ascending_congr (h : xs.Perm ys) : ascending xs = ascending ys := by
  have hxs := isSorted_ascending xs
  exact IsSorted.eq ⟨hxs.perm.trans h, hxs.pairwise⟩

theorem medianOf_congr {input other : Grid} (h : other.cells.flatten.Perm input.cells.flatten) :
    medianOf other = medianOf input := by
  rw [medianOf, medianOf, ascending_congr (Grid.numbers_perm h)]

end Order

section Middle

/-- In ascending order as many numbers stand in front of `x` as behind it. -/
def IsMiddle (xs : List Decimal) (x : Decimal) : Prop :=
  ∃ below above, IsSorted (below ++ x :: above) xs ∧ below.length = above.length

/-- In ascending order `x` and `y` stand side by side, and as many numbers in front of them as behind
them. -/
def MiddlePair (xs : List Decimal) (x y : Decimal) : Prop :=
  ∃ below above, IsSorted (below ++ x :: y :: above) xs ∧ below.length = above.length

theorem length_ascending (xs : List Decimal) : (ascending xs).length = xs.length :=
  (isSorted_ascending xs).perm.length_eq

theorem exists_isMiddle (hodd : xs.length % 2 = 1) : ∃ x, IsMiddle xs x := by
  have hlength := length_ascending xs
  have hlt : xs.length / 2 < (ascending xs).length := by omega
  refine ⟨(ascending xs)[xs.length / 2], (ascending xs).take (xs.length / 2),
    (ascending xs).drop (xs.length / 2 + 1), ?_, ?_⟩
  · rw [← List.drop_eq_getElem_cons hlt, List.take_append_drop]
    exact isSorted_ascending xs
  · rw [List.length_take, List.length_drop]
    omega

theorem exists_middlePair (hne : xs ≠ []) (heven : xs.length % 2 = 0) :
    ∃ x y, MiddlePair xs x y := by
  have hpos := List.length_pos_iff.mpr hne
  have hlength := length_ascending xs
  have hfirst : xs.length / 2 - 1 < (ascending xs).length := by omega
  have hsecond : xs.length / 2 - 1 + 1 < (ascending xs).length := by omega
  refine ⟨(ascending xs)[xs.length / 2 - 1], (ascending xs)[xs.length / 2 - 1 + 1],
    (ascending xs).take (xs.length / 2 - 1), (ascending xs).drop (xs.length / 2 - 1 + 1 + 1), ?_, ?_⟩
  · rw [← List.drop_eq_getElem_cons hsecond, ← List.drop_eq_getElem_cons hfirst,
      List.take_append_drop]
    exact isSorted_ascending xs
  · rw [List.length_take, List.length_drop]
    omega

/-- What stands in the middle has at most half of the other numbers below it and at most half of them
above it. -/
theorem IsMiddle.countP_le (h : IsMiddle xs x) :
    (xs.countP fun y => y.value < x.value) ≤ (xs.length - 1) / 2 ∧
      (xs.countP fun y => x.value < y.value) ≤ (xs.length - 1) / 2 := by
  obtain ⟨below, above, hsorted, hlength⟩ := h
  obtain ⟨-, hright, hleft⟩ := List.pairwise_append.mp hsorted.pairwise
  have hbelow : (below.countP fun y => x.value < y.value) = 0 := by
    rw [List.countP_eq_zero]
    intro y hy
    simpa using hleft y hy x List.mem_cons_self
  have habove : (above.countP fun y => y.value < x.value) = 0 := by
    rw [List.countP_eq_zero]
    intro y hy
    simpa using List.rel_of_pairwise_cons hright hy
  have hcount : xs.length = 2 * below.length + 1 := by
    rw [← hsorted.perm.length_eq, List.length_append, List.length_cons]
    omega
  have hlow := below.countP_le_length (p := fun y => decide (y.value < x.value))
  have hhigh := above.countP_le_length (p := fun y => decide (x.value < y.value))
  rw [← hsorted.perm.countP_eq, ← hsorted.perm.countP_eq, List.countP_append, List.countP_append,
    List.countP_cons_of_neg (by simp), List.countP_cons_of_neg (by simp), hbelow, habove]
  omega

variable {input : Grid}

theorem medianOf_of_isMiddle (h : IsMiddle input.numbers x) :
    medianOf input = .ok (.ofDecimal x) := by
  obtain ⟨below, above, hsorted, hlength⟩ := h
  have hcount : (below ++ x :: above).length = 2 * below.length + 1 := by
    rw [List.length_append, List.length_cons]
    omega
  have hhalf : (2 * below.length + 1) / 2 = below.length := by omega
  have hodd : (2 * below.length + 1) % 2 = 1 := by omega
  rw [medianOf, ← hsorted.eq]
  dsimp only
  rw [hcount, hhalf, hodd, List.getElem?_append_right le_rfl, Nat.sub_self]
  rfl

theorem medianOf_of_middlePair (h : MiddlePair input.numbers x y) :
    medianOf input = .ok (.ofDecimal (quotient (x + y) (.ofInt 2))) := by
  obtain ⟨below, above, hsorted, hlength⟩ := h
  have hcount : (below ++ x :: y :: above).length = 2 * (below.length + 1) := by
    rw [List.length_append, List.length_cons, List.length_cons]
    omega
  have hhalf : 2 * (below.length + 1) / 2 = below.length + 1 := by omega
  have heven : 2 * (below.length + 1) % 2 = 0 := by omega
  have htwo : Decimal.ofInt 2 ≠ 0 := Decimal.ofInt_ne_zero (by decide)
  rw [medianOf, ← hsorted.eq]
  dsimp only
  rw [hcount, hhalf, heven, Nat.add_sub_cancel, List.getElem?_append_right le_rfl, Nat.sub_self,
    List.getElem?_append_right (Nat.le_add_right _ 1), Nat.add_sub_cancel_left]
  dsimp only [List.getElem?_cons_zero, List.getElem?_cons_succ, Option.getD_some]
  rw [Decimal.divide_eq htwo]
  rfl

end Middle

section Half

/-- Half of a sum that leaves one digit free is exact. -/
theorem value_half (h : HasDigits 49 (x.value + y.value)) :
    (quotient (x + y) (.ofInt 2)).value = (x.value + y.value) / 2 := by
  have hsum := (Decimal.agreesTo_add x y).exact (h.mono (by decide))
  have htwo : Decimal.ofInt 2 ≠ 0 := Decimal.ofInt_ne_zero (by decide)
  obtain ⟨digits, hdigits, -, hvalue⟩ := Decimal.exists_quotient_eq_nearest htwo (x + y)
  rw [hsum, Decimal.value_ofInt] at hvalue
  rw [hvalue]
  exact (h.half.mono hdigits).nearest_eq

end Half

/-- The median is a single cell, whatever the order and the arrangement of the cells. Of an odd number
of cells it is the number of one of them, with at most half of the others below it and at most half of
them above it; of an even number of cells it is half the sum of the two in the middle, and exactly
that if the sum has at most 49 digits. -/
theorem median_of_cells {input : Grid} (hcells : input.cells.flatten ≠ []) :
    let n := input.cells.flatten.length
    ∃ text,
      (∀ (context : Context) (other : Grid), other.cells.flatten.Perm input.cells.flatten →
        median.call context other = .ok (.single text)) ∧
      (n % 2 = 1 → ∃ x ∈ input.numbers, text = x.canonical ∧
        (input.numbers.countP fun y => y.value < x.value) ≤ (n - 1) / 2 ∧
        (input.numbers.countP fun y => x.value < y.value) ≤ (n - 1) / 2) ∧
      (n % 2 = 0 → (∃ x y, MiddlePair input.numbers x y) ∧
        ∀ x y, MiddlePair input.numbers x y → HasDigits 49 (x.value + y.value) →
          ∃ half : Decimal, text = half.canonical ∧ half.value = (x.value + y.value) / 2) := by
  intro n
  have hlength : input.numbers.length = n := List.length_map _
  have hnumbers : input.numbers ≠ [] := mt List.map_eq_nil_iff.mp hcells
  have hcall {text : String} (hmedian : medianOf input = .ok (.single text)) (context : Context)
      (other : Grid) (hother : other.cells.flatten.Perm input.cells.flatten) :
      median.call context other = .ok (.single text) :=
    (medianOf_congr hother).trans hmedian
  rcases Nat.mod_two_eq_zero_or_one n with heven | hodd
  · obtain ⟨x, y, hpair⟩ := exists_middlePair hnumbers (hlength ▸ heven)
    have hmedian := medianOf_of_middlePair hpair
    refine ⟨_, hcall hmedian, by omega, fun _ => ⟨⟨x, y, hpair⟩, ?_⟩⟩
    intro x' y' hpair' hdigits
    have hsame := hmedian.symm.trans (medianOf_of_middlePair hpair')
    simp only [Grid.ofDecimal, Grid.single, Except.ok.injEq, Grid.mk.injEq, List.cons.injEq,
      and_true] at hsame
    exact ⟨_, hsame, value_half hdigits⟩
  · obtain ⟨x, hmiddle⟩ := exists_isMiddle (hlength ▸ hodd)
    refine ⟨_, hcall (medianOf_of_isMiddle hmiddle), fun _ => ⟨x, ?_, rfl, ?_⟩, by omega⟩
    · obtain ⟨below, above, hsorted, -⟩ := hmiddle
      apply hsorted.perm.mem_iff.mp
      exact List.mem_append_right below List.mem_cons_self
    · rw [← hlength]
      exact hmiddle.countP_le

/-- Six cells in three rows, and the same cells in one. -/
theorem median_of_cells_block :
    let context := Registry.standard.context 20
    median.call context ⟨[["10", "1"], ["2", "30"], ["3", "4"]]⟩ = .ok (.single "3.5") ∧
    median.call context ⟨[["4", "3", "30", "2", "1", "10"]]⟩ = .ok (.single "3.5") := by
  have hnumbers : (⟨[["10", "1"], ["2", "30"], ["3", "4"]]⟩ : Grid).numbers =
      [10, 1, 2, 30, 3, 4].map .ofInt := Grid.numbers_of_reads (by cbv)
  have hpair : MiddlePair (⟨[["10", "1"], ["2", "30"], ["3", "4"]]⟩ : Grid).numbers (.ofInt 3)
      (.ofInt 4) := by
    have hperm : ([1, 2, 3, 4, 10, 30] : List Int).Perm [10, 1, 2, 30, 3, 4] := by decide
    refine ⟨[.ofInt 1, .ofInt 2], [.ofInt 10, .ofInt 30], ⟨hnumbers ▸ hperm.map _, ?_⟩, rfl⟩
    simp only [List.cons_append, List.nil_append, List.pairwise_cons, List.forall_mem_cons,
      Decimal.value_ofInt]
    norm_num
  have hdigits : HasDigits 49 ((Decimal.ofInt 3).value + (Decimal.ofInt 4).value) :=
    ⟨7, 0, by decide, by norm_num⟩
  have hcells : (⟨[["10", "1"], ["2", "30"], ["3", "4"]]⟩ : Grid).cells.flatten ≠ [] :=
    List.cons_ne_nil _ _
  obtain ⟨text, hcall, -, heven⟩ := median_of_cells hcells
  obtain ⟨half, htext, hhalf⟩ := (heven (by decide)).2 _ _ hpair hdigits
  have hvalue : half = .scaled 35 (-1) := by
    rw [← Decimal.value_inj, hhalf]
    norm_num
  have hcanonical : (Decimal.scaled 35 (-1)).canonical = "3.5" := by cbv
  rw [htext, hvalue, hcanonical] at hcall
  exact ⟨hcall _ _ (.refl _), hcall _ _ (by decide)⟩

section Mean

variable {input pair : Grid} {digits : ℕ}

theorem meanOf_pair (hpair : pair.numbers = [x, y]) :
    meanOf digits pair =
      (liftFault (Decimal.divideTo digits (x + y) (.ofInt 2))).map Grid.ofDecimal := by
  rw [meanOf, hpair, Decimal.total_pair]
  rfl

/-- A rounded number is written as the number itself just if it has no more digits than are kept. -/
theorem ofDecimal_roundToDigits_eq_iff (hpos : 0 < digits) :
    Grid.ofDecimal x = Grid.ofDecimal (x.roundToDigits digits) ↔ HasDigits digits x.value := by
  simp only [Grid.ofDecimal, Grid.single, Grid.mk.injEq, List.cons.injEq, and_true]
  rw [Cell.canonical_inj, ← Decimal.value_inj, Decimal.value_roundToDigits]
  constructor
  · intro heq
    rw [heq]
    exact Decimal.hasDigits_nearest hpos x.value
  · intro hdigits
    exact hdigits.nearest_eq.symm

/-- The median of an even number of cells keeps the digits of the working precision, where the mean of
the two cells in the middle keeps those that are asked for. Half the sum at the working precision is the
median; the mean is this number rounded once more, unless the digits that are asked for are those of the
working precision. So both are the same cell just if no digits are lost by that. -/
theorem median_eq_mean_iff (hcells : input.cells.flatten ≠ [])
    (heven : input.cells.flatten.length % 2 = 0) :
    (∃ x y, MiddlePair input.numbers x y) ∧
    ∀ x y, MiddlePair input.numbers x y →
      ∃ half, Decimal.divide (x + y) (.ofInt 2) = .ok half ∧
        (HasDigits 49 (x.value + y.value) → half.value = (x.value + y.value) / 2) ∧
        ∀ (context : Context) (pair : Grid), pair.numbers = [x, y] →
          let kept := min (max context.quotientDigits 1) 50
          median.call context input = .ok (.ofDecimal half) ∧
          (∃ z : Decimal, mean.call context pair = .ok (.ofDecimal z) ∧
            z.value =
              if context.quotientDigits = 50 then half.value else nearest kept half.value) ∧
          (median.call context input = mean.call context pair ↔
            context.quotientDigits = 50 ∨ HasDigits kept half.value) := by
  have hnumbers : input.numbers ≠ [] := mt List.map_eq_nil_iff.mp hcells
  have hlength : input.numbers.length % 2 = 0 := by
    rwa [Grid.numbers, List.length_map]
  have htwo : Decimal.ofInt 2 ≠ 0 := Decimal.ofInt_ne_zero (by decide)
  refine ⟨exists_middlePair hnumbers hlength, fun x y hmiddle => ?_⟩
  refine ⟨_, Decimal.divide_eq htwo, value_half, fun context pair hpair => ?_⟩
  intro kept
  have hmedian : median.call context input =
      .ok (.ofDecimal (quotient (x + y) (.ofInt 2))) := medianOf_of_middlePair hmiddle
  have hmean : mean.call context pair = _ := meanOf_pair hpair
  rw [hmedian, hmean]
  by_cases hdigits : context.quotientDigits = 50
  · have hworking : context.quotientDigits = Decimal.workingDigits := hdigits
    rw [hworking, Decimal.divideTo_workingDigits htwo]
    refine ⟨rfl, ⟨_, rfl, (if_pos rfl).symm⟩, ?_⟩
    exact iff_of_true rfl (.inl rfl)
  · have hkept : 0 < kept := by omega
    rw [Decimal.divideTo_of_ne htwo hdigits]
    refine ⟨rfl, ⟨_, rfl, ?_⟩, ?_⟩
    · rw [if_neg hdigits]
      exact Decimal.value_roundToDigits _ _
    · rw [or_iff_right hdigits, ← ofDecimal_roundToDigits_eq_iff hkept]
      exact ⟨Except.ok.inj, congrArg Except.ok⟩

/-- The two in the middle of four cells are 2 and 10, whose half has one digit. -/
theorem median_eq_mean_iff_block :
    let context := Registry.standard.context 1
    median.call context ⟨[["10", "1"], ["2", "30"]]⟩ = .ok (.single "6") ∧
    mean.call context ⟨[["2", "10"]]⟩ = .ok (.single "6") := by
  have hcells : (⟨[["10", "1"], ["2", "30"]]⟩ : Grid).cells.flatten ≠ [] := List.cons_ne_nil _ _
  have hnumbers : (⟨[["10", "1"], ["2", "30"]]⟩ : Grid).numbers = [10, 1, 2, 30].map .ofInt :=
    Grid.numbers_of_reads (by cbv)
  have hmiddle : MiddlePair (⟨[["10", "1"], ["2", "30"]]⟩ : Grid).numbers (.ofInt 2)
      (.ofInt 10) := by
    have hperm : ([1, 2, 10, 30] : List Int).Perm [10, 1, 2, 30] := by decide
    refine ⟨[.ofInt 1], [.ofInt 30], ⟨hnumbers ▸ hperm.map _, ?_⟩, rfl⟩
    simp only [List.cons_append, List.nil_append, List.pairwise_cons, List.forall_mem_cons,
      Decimal.value_ofInt]
    norm_num
  have hpair : (⟨[["2", "10"]]⟩ : Grid).numbers = [.ofInt 2, .ofInt 10] :=
    Grid.numbers_of_reads (by cbv)
  obtain ⟨half, -, hhalf, hcalls⟩ := (median_eq_mean_iff hcells (by decide)).2 _ _ hmiddle
  have hvalue : half = .ofInt 6 := by
    have hdigits : HasDigits 49 ((Decimal.ofInt 2).value + (Decimal.ofInt 10).value) :=
      ⟨12, 0, by decide, by norm_num⟩
    rw [← Decimal.value_inj, hhalf hdigits]
    norm_num
  have hcanonical : (Decimal.ofInt 6).canonical = "6" := by cbv
  obtain ⟨hmedian, -, heq⟩ := hcalls (Registry.standard.context 1) _ hpair
  have hsame := heq.mpr (.inr ⟨6, 0, by decide, by rw [hvalue]; norm_num⟩)
  rw [hvalue, Grid.ofDecimal, hcanonical] at hmedian
  exact ⟨hmedian, hsame.symm.trans hmedian⟩

/-- Half the sum of two cells has 23 digits: the median has all of them, also where twenty are asked
for, and the mean of these cells twenty. -/
theorem median_ne_mean :
    let context := Registry.standard.context 20
    let input : Grid := ⟨[["1"], ["10000000000000000000000"]]⟩
    (∃ x y, MiddlePair input.numbers x y ∧ input.numbers = [x, y]) ∧
    median.call context input = .ok (.single "5000000000000000000000.5") ∧
    mean.call context input = .ok (.single "5000000000000000000000") ∧
    median.call context input ≠ mean.call context input := by
  intro context input
  have hnumbers : input.numbers = [.ofInt 1, .ofInt (10 ^ 22)] := Grid.numbers_of_reads (by cbv)
  have hmiddle : MiddlePair input.numbers (.ofInt 1) (.ofInt (10 ^ 22)) := by
    refine ⟨[], [], ⟨by rw [hnumbers]; exact .refl _, ?_⟩, rfl⟩
    simp only [List.nil_append, List.pairwise_cons, List.forall_mem_cons, Decimal.value_ofInt]
    norm_num
  have hmean : mean.call context input = .ok (.single "5000000000000000000000") := by decide +kernel
  have hmedian : median.call context input = .ok (.single "5000000000000000000000.5") := by
    have hdigits : HasDigits 49 ((Decimal.ofInt 1).value + (Decimal.ofInt (10 ^ 22)).value) :=
      ⟨10 ^ 22 + 1, 0, by decide, by norm_num⟩
    have hhalf : quotient (.ofInt 1 + .ofInt (10 ^ 22)) (.ofInt 2) =
        .scaled 50000000000000000000005 (-1) := by
      rw [← Decimal.value_inj, value_half hdigits]
      norm_num
    have hcanonical : (Decimal.scaled 50000000000000000000005 (-1)).canonical =
        "5000000000000000000000.5" := by cbv
    rw [show median.call context input = _ from medianOf_of_middlePair hmiddle, hhalf, Grid.ofDecimal,
      hcanonical]
  refine ⟨⟨_, _, hmiddle, hnumbers⟩, hmedian, hmean, ?_⟩
  rw [hmedian, hmean]
  decide

end Mean

end Aggregate

end TableCalc
