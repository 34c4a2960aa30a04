/-
Rounding to whole units, halves away from zero.

A value is sent as the nearest whole number of units and read back as that many
units.  A sender may cap the number at the rounded number of units of some bound; for
a value within the bound the cap never acts.

* `abs_unit_mul_quantized_sub_le` — the value read back is off by half a unit at most;
* `abs_quantized_le` — rounding keeps a bound, itself rounded.
-/
import Base101.Double

variable {K : Type} [Field K] [LinearOrder K] [IsStrictOrderedRing K] [FloorRing K] {x y : K}

/-! ### Rounding -/

omit [IsStrictOrderedRing K] in
theorem roundHalfAway_of_nonneg (h : 0 ≤ x) : roundHalfAway x = ⌊x + 1 / 2⌋ := by
  rw [roundHalfAway, if_neg (not_lt.mpr h)]

@[simp] theorem roundHalfAway_zero : roundHalfAway (0 : K) = 0 := by
  have h := roundHalfAway_intCast (K := K) 0
  rwa [Int.cast_zero] at h

/-- Away from zero on both sides. -/
theorem roundHalfAway_neg (x : K) : roundHalfAway (-x) = -roundHalfAway x := by
  rcases lt_trichotomy x 0 with h | rfl | h
  · have hneg : 0 ≤ -x := by linarith
    rw [roundHalfAway_of_nonneg hneg, roundHalfAway, if_pos h, neg_neg, neg_add_eq_sub]
  · simp
  · have hneg : -x < 0 := by linarith
    rw [roundHalfAway_of_nonneg h.le, roundHalfAway, if_pos hneg, sub_neg_eq_add, add_comm]

theorem roundHalfAway_nonneg (h : 0 ≤ x) : 0 ≤ roundHalfAway x := by
  rw [roundHalfAway_of_nonneg h]
  exact Int.floor_nonneg.mpr (by linarith)

theorem roundHalfAway_le_of_nonneg (hx : 0 ≤ x) (hxy : x ≤ y) :
    roundHalfAway x ≤ roundHalfAway y := by
  rw [roundHalfAway_of_nonneg hx, roundHalfAway_of_nonneg (hx.trans hxy)]
  exact Int.floor_le_floor (by linarith)

theorem roundHalfAway_abs (x : K) : roundHalfAway |x| = |roundHalfAway x| := by
  rcases le_total 0 x with h | h
  · rw [abs_of_nonneg h, abs_of_nonneg (roundHalfAway_nonneg h)]
  · have hneg : 0 ≤ roundHalfAway (-x) := roundHalfAway_nonneg (by linarith)
    rw [abs_of_nonpos h, roundHalfAway_neg, abs_of_nonpos]
    rw [roundHalfAway_neg] at hneg
    omega

/-- Rounding moves a number by half at most. -/
theorem abs_roundHalfAway_sub_le (x : K) : |(roundHalfAway x : K) - x| ≤ 1 / 2 := by
  have hlow (y : K) := Int.floor_le y
  have hhigh (y : K) := Int.lt_floor_add_one y
  rw [roundHalfAway, abs_le]
  split
  · push_cast
    have hlow' := hlow (1 / 2 - x)
    have hhigh' := hhigh (1 / 2 - x)
    constructor
    · linarith
    · linarith
  · have hlow' := hlow (x + 1 / 2)
    have hhigh' := hhigh (x + 1 / 2)
    constructor
    · linarith
    · linarith

/-! ### Units -/

/-- The nearest whole number of units. -/
def quantized (unit x : K) : ℤ := roundHalfAway (x / unit)

/-- A whole number of units is sent as it is. -/
theorem quantized_mul (n : ℤ) {unit : K} (hunit : 0 < unit) : quantized unit (n * unit) = n := by
  rw [quantized, mul_div_cancel_right₀ _ hunit.ne', roundHalfAway_intCast]

/-- **Half a unit.**  What is read back is off by half a unit at most. -/
theorem abs_unit_mul_quantized_sub_le {unit : K} (hunit : 0 < unit) (x : K) :
    |unit * quantized unit x - x| ≤ unit / 2 := by
  have hsplit : unit * quantized unit x - x = unit * ((quantized unit x : K) - x / unit) := by
    rw [mul_sub, mul_div_cancel₀ _ hunit.ne']
  calc |unit * quantized unit x - x| = unit * |(quantized unit x : K) - x / unit| := by
        rw [hsplit, abs_mul, abs_of_pos hunit]
    _ ≤ unit * (1 / 2) := mul_le_mul_of_nonneg_left (abs_roundHalfAway_sub_le _) hunit.le
    _ = unit / 2 := by ring

/-- Rounding keeps a bound, itself rounded. -/
theorem abs_quantized_le {unit bound : K} (hunit : 0 < unit) (h : |x| ≤ bound) :
    |quantized unit x| ≤ quantized unit bound := by
  rw [quantized, ← roundHalfAway_abs, abs_div, abs_of_pos hunit, quantized]
  exact roundHalfAway_le_of_nonneg (by positivity) (div_le_div_of_nonneg_right h hunit.le)

/-! ### Capped -/

/-- A number within the cap on either side is not altered. -/
theorem capped_of_abs_le {n cap : ℤ} (h : |n| ≤ cap) :
    (if (if cap < n then cap else n) < -cap then -cap else if cap < n then cap else n) = n := by
  obtain ⟨hlow, hhigh⟩ := abs_le.mp h
  rw [if_neg (by omega : ¬cap < n), if_neg (by omega)]
