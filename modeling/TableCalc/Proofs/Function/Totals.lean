import Mathlib.Algebra.Order.BigOperators.Group.List
import TableCalc.Function.Aggregate
import TableCalc.Proofs.Decimal.Sums

/-!
Totals. While numbers are added up that are whole multiples of one power of ten, no addition rounds, as
long as all of them together have no more digits than are kept; so the total is exact after each step,
and the order of the numbers does not matter.
-/

namespace TableCalc

namespace Decimal

variable {x y : Decimal} {xs : List Decimal} {place : ℤ}

/-- One addition is exact if its result fits the working digits behind the common place. -/
theorem value_add_of_multiples {m n : ℤ} (hx : x.value = m * 10 ^ place)
    (hy : y.value = n * 10 ^ place) (hfits : |x.value + y.value| < 10 ^ (workingDigits + place)) :
    (x + y).value = x.value + y.value := by
  have hsum : x.value + y.value = ((m + n : ℤ) : ℚ) * 10 ^ place := by
    rw [hx, hy, Int.cast_add, add_mul]
  apply (agreesTo_add x y).exact
  refine ⟨m + n, place, ?_, hsum⟩
  rw [hsum, abs_mul, abs_of_pos (tenPow_pos place), tenPow_add, zpow_natCast] at hfits
  have hlt := lt_of_mul_lt_mul_right hfits (tenPow_pos place).le
  exact_mod_cast hlt

/-- A number keeps being a multiple while more of them are added to it, so each addition is exact. -/
theorem value_foldl_add {acc : Decimal} (hacc : ∃ m : ℤ, acc.value = m * 10 ^ place)
    (hxs : ∀ x ∈ xs, ∃ n : ℤ, x.value = n * 10 ^ place)
    (hfits : |acc.value| + (xs.map fun x => |x.value|).sum < 10 ^ (workingDigits + place)) :
    (xs.foldl (· + ·) acc).value = acc.value + (xs.map value).sum := by
  induction xs generalizing acc with
  | nil => simp
  | cons x xs ih =>
    obtain ⟨⟨n, hn⟩, hrest⟩ := List.forall_mem_cons.mp hxs
    obtain ⟨m, hm⟩ := hacc
    rw [List.map_cons, List.sum_cons] at hfits
    have hnonneg : 0 ≤ (xs.map fun x => |x.value|).sum := by
      apply List.sum_nonneg
      intro q hq
      obtain ⟨x, -, rfl⟩ := List.mem_map.mp hq
      exact abs_nonneg x.value
    have htriangle := abs_add_le acc.value x.value
    have hstep : (acc + x).value = acc.value + x.value :=
      value_add_of_multiples hm hn (by linarith)
    have hmultiple : (acc + x).value = ((m + n : ℤ) : ℚ) * 10 ^ place := by
      rw [hstep, hm, hn, Int.cast_add, add_mul]
    rw [List.foldl_cons, ih ⟨_, hmultiple⟩ hrest (by rw [hstep]; linarith), hstep, List.map_cons,
      List.sum_cons, add_assoc]

theorem value_total (hxs : ∀ x ∈ xs, ∃ n : ℤ, x.value = n * 10 ^ place)
    (hfits : (xs.map fun x => |x.value|).sum < 10 ^ (workingDigits + place)) :
    (total xs).value = (xs.map value).sum := by
  have hzero : ∃ m : ℤ, (0 : Decimal).value = m * 10 ^ place := ⟨0, by simp⟩
  have h := value_foldl_add hzero hxs (by rwa [value_zero, abs_zero, zero_add])
  rwa [value_zero, zero_add] at h

theorem total_pair (x y : Decimal) : total [x, y] = x + y :=
  congrArg (· + y) (Decimal.zero_add x)

end Decimal

theorem Grid.numbers_perm {g g' : Grid} (h : g.cells.flatten.Perm g'.cells.flatten) :
    g.numbers.Perm g'.numbers :=
  h.map Cell.number

namespace Aggregate

/-- The sum is exact while it fits. If the numbers of all cells are whole multiples of one power of ten
and their absolute values together are less than the power fifty places above it, the sum is written as
the exact total of the numbers, whatever the order and the arrangement of the cells. -/
theorem sum_exact_while_it_fits {input : Grid} {s : ℤ}
    (hmultiples : ∀ x ∈ input.numbers, ∃ n : ℤ, x.value = n * 10 ^ (-s))
    (hfits : (input.numbers.map fun x => |x.value|).sum < 10 ^ (50 - s)) :
    ∃ total : Decimal, total.value = (input.numbers.map Decimal.value).sum ∧
      ∀ (context : Context) (other : Grid), other.cells.flatten.Perm input.cells.flatten →
        sum.call context other = .ok (.single total.canonical) := by
  have hexact := Decimal.value_total hmultiples hfits
  refine ⟨_, hexact, fun context other hother => ?_⟩
  have hnumbers := Grid.numbers_perm hother
  have hmultiples' : ∀ x ∈ other.numbers, ∃ n : ℤ, x.value = n * 10 ^ (-s) :=
    fun x hx => hmultiples x (hnumbers.mem_iff.mp hx)
  have hfits' : (other.numbers.map fun x => |x.value|).sum < 10 ^ (50 - s) := by
    rwa [(hnumbers.map _).sum_eq]
  have htotal : Decimal.total other.numbers = Decimal.total input.numbers := by
    rw [← Decimal.value_inj, Decimal.value_total hmultiples' hfits', hexact,
      (hnumbers.map _).sum_eq]
  change Except.ok (sumOf other) = _
  rw [sumOf, htotal]
  rfl

/-- A decimal, a date-time, a duration and a word, in a square and in a column. -/
theorem sum_exact_while_it_fits_mixed :
    let context := Registry.standard.context 20
    sum.call context ⟨[["0.5", "1970-01-01 00:01"], ["-00:02", "Task"]]⟩ =
      .ok (.single "-59999.5") ∧
    sum.call context ⟨[["Task"], ["-00:02"], ["1970-01-01 00:01"], ["0.5"]]⟩ =
      .ok (.single "-59999.5") := by
  have hnumbers : (⟨[["0.5", "1970-01-01 00:01"], ["-00:02", "Task"]]⟩ : Grid).numbers =
      [.scaled 5 (-1), .ofInt 60000, .ofInt (-120000), 0] := by decide +kernel
  have hmultiples : ∀ x ∈ [Decimal.scaled 5 (-1), .ofInt 60000, .ofInt (-120000), 0],
      ∃ n : ℤ, x.value = n * 10 ^ (-1 : ℤ) := by
    simp only [List.forall_mem_cons, Decimal.value_scaled, Decimal.value_ofInt, Decimal.value_zero]
    exact ⟨⟨5, rfl⟩, ⟨600000, by norm_num⟩, ⟨-1200000, by norm_num⟩, ⟨0, by norm_num⟩,
      List.forall_mem_nil _⟩
  obtain ⟨total, hvalue, hcall⟩ := sum_exact_while_it_fits (hnumbers ▸ hmultiples) (by
    rw [hnumbers]
    norm_num)
  have htotal : total = .scaled (-599995) (-1) := by
    rw [← Decimal.value_inj, hvalue, hnumbers]
    norm_num
  have htext : (Decimal.scaled (-599995) (-1)).canonical = "-59999.5" := by decide +kernel
  rw [htotal, htext] at hcall
  exact ⟨hcall _ _ (.refl _), hcall _ _ (by decide)⟩

end Aggregate

end TableCalc
