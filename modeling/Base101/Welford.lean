/-
The running mean and squared deviation of a list (Welford's recurrences).

* `mean_concat` — the mean moves by the new difference over the new count;
* `squaredDeviation_concat` — the sum of squared deviations grows by the product of the
  differences from the old and the new mean.
-/
import Mathlib

namespace Welford

variable {K : Type*} [Field K]

/-- The arithmetic mean; `0` of the empty list. -/
def mean (xs : List K) : K := xs.sum / xs.length

/-- The sum of the squared deviations from the mean. -/
def squaredDeviation (xs : List K) : K := (xs.map fun x => (x - mean xs) ^ 2).sum

@[simp] theorem mean_nil : mean ([] : List K) = 0 := by simp [mean]

@[simp] theorem squaredDeviation_nil : squaredDeviation ([] : List K) = 0 := by
  simp [squaredDeviation]

/-- Squared deviations from any point, through the sums of the list. -/
theorem sum_sq_sub (xs : List K) (c : K) : (xs.map fun x => (x - c) ^ 2).sum =
    (xs.map fun x => x ^ 2).sum - (c + c) * xs.sum + xs.length * c ^ 2 := by
  induction xs with
  | nil => simp
  | cons x xs ih =>
    simp only [List.map_cons, List.sum_cons, List.length_cons, ih]
    push_cast
    ring

section CharZero

variable [CharZero K]

theorem mean_mul_length (xs : List K) : mean xs * xs.length = xs.sum := by
  rcases xs with _ | ⟨x, xs⟩
  · simp
  · have hlen : (((x :: xs).length : ℕ) : K) ≠ 0 := by
      rw [List.length_cons]
      exact Nat.cast_ne_zero.mpr (Nat.succ_ne_zero _)
    exact div_mul_cancel₀ _ hlen

theorem mean_concat (xs : List K) (x : K) :
    mean (xs ++ [x]) = mean xs + (x - mean xs) / (xs.length + 1 : ℕ) := by
  have hlen : ((xs.length + 1 : ℕ) : K) ≠ 0 := Nat.cast_ne_zero.mpr (Nat.succ_ne_zero _)
  have hsum := mean_mul_length xs
  rw [mean, List.sum_append, List.sum_singleton, List.length_append, List.length_singleton,
    ← hsum]
  field_simp
  push_cast
  ring

theorem squaredDeviation_eq (xs : List K) : squaredDeviation xs =
    (xs.map fun x => x ^ 2).sum - xs.length * mean xs ^ 2 := by
  have hsum := mean_mul_length xs
  rw [squaredDeviation, sum_sq_sub, ← hsum]
  ring

theorem squaredDeviation_concat (xs : List K) (x : K) :
    squaredDeviation (xs ++ [x]) =
      squaredDeviation xs + (x - mean xs) * (x - mean (xs ++ [x])) := by
  have hlen : ((xs.length + 1 : ℕ) : K) ≠ 0 := Nat.cast_ne_zero.mpr (Nat.succ_ne_zero _)
  -- with `n` values of mean `m`, the step of the mean is `(x - m) / (n + 1)`
  have hstep : (mean (xs ++ [x]) - mean xs) * (xs.length + 1 : ℕ) = x - mean xs := by
    rw [mean_concat, add_sub_cancel_left, div_mul_cancel₀ _ hlen]
  rw [squaredDeviation_eq, squaredDeviation_eq, List.map_append, List.sum_append,
    List.map_singleton, List.sum_singleton, List.length_append, List.length_singleton]
  generalize mean (xs ++ [x]) = m' at hstep ⊢
  push_cast at hstep ⊢
  linear_combination (-m' - mean xs) * hstep
end CharZero

end Welford
