import TableCalc.Proofs.Cell.Numbers
import TableCalc.Proofs.Decimal.Precision
import TableCalc.Proofs.Engine.Broadcast

/-!
The numbers that calculations lead to. Cells are read with the working precision, and no calculation
on numbers with one digit more gives a number with more, so however long a calculation is, its digits
stay bounded. What operations on cells write and what the functions give are such numbers.
-/

namespace TableCalc

/-- The numbers that calculations on the numbers of cells lead to. A calculation may divide by any
number. -/
inductive Calculated : Decimal → Prop where
  | number (text : String) : Calculated (Cell.number text)
  | add {x y : Decimal} (hx : Calculated x) (hy : Calculated y) : Calculated (x + y)
  | sub {x y : Decimal} (hx : Calculated x) (hy : Calculated y) : Calculated (x - y)
  | mul {x y : Decimal} (hx : Calculated x) (hy : Calculated y) : Calculated (x * y)
  | divide {x y z : Decimal} (hx : Calculated x) (h : Decimal.divide x y = .ok z) : Calculated z
  | divideTo {digits : Nat} {x y z : Decimal} (hx : Calculated x)
      (h : Decimal.divideTo digits x y = .ok z) : Calculated z

namespace Calculated

variable {x y z : Decimal} {xs : List Decimal}

/-- No calculation leads to numbers of more than one digit above the working precision. -/
theorem precision_le (h : Calculated x) : x.precision ≤ Decimal.workingDigits + 1 := by
  induction h with
  | number text => exact Nat.le_succ_of_le (Cell.precision_number_le text)
  | add _ _ hx hy => exact Decimal.precision_add_le hx hy
  | sub _ _ hx hy => exact Decimal.precision_sub_le hx hy
  | mul _ _ _ _ => exact Nat.le_succ_of_le (Decimal.precision_mul_le _ _)
  | divide _ h hx => exact Decimal.precision_divide_le hx h
  | divideTo _ h hx => exact Decimal.precision_divideTo_le hx h

theorem zero : Calculated 0 := number ""

theorem foldl_add (hx : Calculated x) (hxs : ∀ y ∈ xs, Calculated y) :
    Calculated (xs.foldl (· + ·) x) := by
  induction xs generalizing x with
  | nil => exact hx
  | cons y ys ih =>
    obtain ⟨hy, hys⟩ := List.forall_mem_cons.mp hxs
    exact ih (hx.add hy) hys

theorem total (hxs : ∀ x ∈ xs, Calculated x) : Calculated (Decimal.total xs) :=
  zero.foldl_add hxs

theorem of_mem_numbers {g : Grid} (h : x ∈ g.numbers) : Calculated x := by
  obtain ⟨text, _, rfl⟩ := List.mem_map.mp h
  exact number text

theorem getElem?_getD (hxs : ∀ x ∈ xs, Calculated x) (i : Nat) : Calculated (xs[i]?.getD 0) := by
  cases hi : xs[i]? with
  | none => exact zero
  | some x => exact hxs x (List.mem_of_getElem? hi)

theorem combine {op : Operation} {quotientDigits : Nat} (hx : Calculated x) (hy : Calculated y)
    (h : op.combine quotientDigits x y = .ok z) : Calculated z := by
  cases Operation.combine_eq_ok_iff.mp h with
  | add => exact hx.add hy
  | subtract => exact hx.sub hy
  | multiply => exact hx.mul hy
  | divide h => exact hx.divideTo h

end Calculated

/-- A function that gives single numbers that calculations lead to. -/
def Function.Calculates (f : Function) : Prop :=
  ∀ context input output, f.call context input = .ok output →
    ∃ x, Calculated x ∧ output = .ofDecimal x

namespace Aggregate

theorem calculates_sum : sum.Calculates := by
  rintro _ input _ ⟨⟩
  exact ⟨_, .total fun _ => .of_mem_numbers, rfl⟩

theorem calculates_mean : mean.Calculates := by
  intro context input output h
  obtain ⟨mean, hmean, h⟩ := bind_eq_ok_iff.mp h
  cases h
  have htotal : Calculated (Decimal.total input.numbers) := .total fun _ => .of_mem_numbers
  exact ⟨mean, htotal.divideTo (mapError_eq_ok_iff.mp hmean), rfl⟩

theorem calculates_median : median.Calculates := by
  intro context input output h
  have hsorted (i : Nat) : Calculated ((ascending input.numbers)[i]?.getD 0) :=
    .getElem?_getD (fun _ hx => .of_mem_numbers (List.mem_mergeSort.mp hx)) i
  change medianOf input = _ at h
  rw [medianOf] at h
  split at h
  · cases h
  · split at h
    · cases h
      exact ⟨_, hsorted _, rfl⟩
    · obtain ⟨half, hhalf, h⟩ := bind_eq_ok_iff.mp h
      cases h
      exact ⟨half, ((hsorted _).add (hsorted _)).divide (mapError_eq_ok_iff.mp hhalf), rfl⟩

end Aggregate

/-- The functions that are always there give numbers that calculations lead to. -/
theorem Registry.calculates_standard : ∀ entry ∈ standard.entries, entry.2.Calculates := by
  apply forall_entries_ofList
  simp only [List.forall_mem_cons, List.not_mem_nil, false_implies, implies_true, and_true]
  exact ⟨Aggregate.calculates_sum, Aggregate.calculates_mean, Aggregate.calculates_median⟩

end TableCalc
