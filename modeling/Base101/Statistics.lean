/-
Statistics of a finite sample, and rounding to decimals, over an ordered field.

* `median_mem_Icc` — the median lies where the sample does;
* `sub_le_of_relativeRange` — a range relative to the median bounds every difference;
* `le_roundTo`, `roundTo_le` — rounding does not leave an interval with decimal bounds.
-/
import Base101.Double

variable {K : Type*} [Field K] [LinearOrder K]

/-! ### Samples -/

namespace List

/-- The middle of the sorted sample, or the mean of the two in the middle. -/
def median (l : List K) : Option K :=
  let sorted := l.insertionSort (· ≤ ·)
  if l.length % 2 = 1 then sorted[l.length / 2]?
  else
    match sorted[l.length / 2 - 1]?, sorted[l.length / 2]? with
    | some a, some b => some ((a + b) / 2)
    | _, _ => none

/-- The sum over the number; `none` of an empty sample. -/
def mean (l : List K) : Option K := if l.isEmpty then none else some (l.sum / l.length)

/-- The range of the sample in medians; `none` without a median, or for the median 0. -/
def relativeRange (l : List K) : Option K := do
  let high ← l.max?
  let low ← l.min?
  let median ← l.median
  if median = 0 then none else some ((high - low) / median)

variable {l : List K} {m : K}

/-- The median lies in every interval that the sample lies in. -/
theorem median_mem_Icc [IsStrictOrderedRing K] {a b : K} (hl : ∀ x ∈ l, a ≤ x ∧ x ≤ b)
    (hm : l.median = some m) : a ≤ m ∧ m ≤ b := by
  have hsorted : ∀ {i : ℕ} {x : K}, (l.insertionSort (· ≤ ·))[i]? = some x → a ≤ x ∧ x ≤ b := by
    intro i x hx
    exact hl x ((mem_insertionSort _).mp (mem_of_getElem? hx))
  rw [median] at hm
  by_cases hodd : l.length % 2 = 1
  · rw [if_pos hodd] at hm
    exact hsorted hm
  · rw [if_neg hodd] at hm
    split at hm
    next x y hx hy =>
      obtain rfl := Option.some.inj hm
      obtain ⟨hax, hxb⟩ := hsorted hx
      obtain ⟨hay, hyb⟩ := hsorted hy
      constructor
      · linarith
      · linarith
    next => cases hm

/-- No two of the sample differ by more than the relative range allows. -/
theorem sub_le_of_relativeRange [IsStrictOrderedRing K] {range bound x y : K}
    (hrange : l.relativeRange = some range) (hm : l.median = some m) (hpos : 0 < m)
    (hbound : range ≤ bound) (hx : x ∈ l) (hy : y ∈ l) : x - y ≤ bound * m := by
  obtain ⟨high, hhigh, hrange⟩ := Option.bind_eq_some_iff.mp hrange
  obtain ⟨low, hlow, hrange⟩ := Option.bind_eq_some_iff.mp hrange
  rw [hm] at hrange
  have hne : m ≠ 0 := hpos.ne'
  have hvalue : (high - low) / m = range := by simpa [hne] using hrange
  have hwide : high - low ≤ bound * m := by
    rw [← hvalue, div_le_iff₀ hpos] at hbound
    exact hbound
  have hxhigh := (max?_eq_some_iff.mp hhigh).2 x hx
  have hlowy := (min?_eq_some_iff.mp hlow).2 y hy
  linarith

end List

/-! ### Rounding -/

variable [FloorRing K]

/-- The integer nearest to `x`, ties to even. -/
def roundHalfEven (x : K) : ℤ :=
  let n := ⌊x + 1 / 2⌋
  if x + 1 / 2 = n ∧ n % 2 ≠ 0 then n - 1 else n

/-- `x` to that many decimals, ties to even. -/
def roundTo (digits : ℕ) (x : K) : K := (roundHalfEven (x * 10 ^ digits) : K) / 10 ^ digits

variable [IsStrictOrderedRing K] {x : K}

theorem abs_roundHalfEven_sub_le (x : K) : |(roundHalfEven x : K) - x| ≤ 1 / 2 := by
  have hlow := Int.floor_le (x + 1 / 2)
  have hhigh := Int.lt_floor_add_one (x + 1 / 2)
  rw [roundHalfEven, abs_le]
  split
  next htie =>
    push_cast
    constructor
    · linarith [htie.1]
    · linarith [htie.1]
  next =>
    constructor
    · linarith
    · linarith

theorem le_roundHalfEven {n : ℤ} (h : (n : K) ≤ x) : n ≤ roundHalfEven x := by
  have hfloor : n ≤ ⌊x + 1 / 2⌋ := Int.le_floor.mpr (by linarith)
  rw [roundHalfEven]
  split
  next htie =>
    -- half below an integer, so above the one before it
    have hlt : (n : K) < (⌊x + 1 / 2⌋ : K) := by linarith [htie.1]
    have hlt' : n < ⌊x + 1 / 2⌋ := by exact_mod_cast hlt
    omega
  next => exact hfloor

theorem roundHalfEven_le {n : ℤ} (h : x ≤ (n : K)) : roundHalfEven x ≤ n := by
  have hfloor : ⌊x + 1 / 2⌋ ≤ n := by
    rw [← Int.lt_add_one_iff, Int.floor_lt]
    push_cast
    linarith
  rw [roundHalfEven]
  split
  next => omega
  next => exact hfloor

theorem abs_roundTo_sub_le (digits : ℕ) (x : K) :
    |roundTo digits x - x| ≤ 1 / 2 / 10 ^ digits := by
  have hpos : (0 : K) < 10 ^ digits := by positivity
  have hscaled : roundTo digits x - x =
      ((roundHalfEven (x * 10 ^ digits) : K) - x * 10 ^ digits) / 10 ^ digits := by
    rw [roundTo]
    field_simp
  rw [hscaled, abs_div, abs_of_pos hpos]
  exact div_le_div_of_nonneg_right (abs_roundHalfEven_sub_le _) hpos.le

theorem le_roundTo {digits : ℕ} {n : ℤ} {low : K} (hn : (n : K) / 10 ^ digits = low)
    (h : low ≤ x) : low ≤ roundTo digits x := by
  have hpos : (0 : K) < 10 ^ digits := by positivity
  rw [← hn] at h ⊢
  have hscaled : n ≤ roundHalfEven (x * 10 ^ digits) :=
    le_roundHalfEven ((div_le_iff₀ hpos).mp h)
  exact div_le_div_of_nonneg_right (by exact_mod_cast hscaled) hpos.le

theorem roundTo_le {digits : ℕ} {n : ℤ} {high : K} (hn : (n : K) / 10 ^ digits = high)
    (h : x ≤ high) : roundTo digits x ≤ high := by
  have hpos : (0 : K) < 10 ^ digits := by positivity
  rw [← hn] at h ⊢
  have hscaled : roundHalfEven (x * 10 ^ digits) ≤ n :=
    roundHalfEven_le ((le_div_iff₀ hpos).mp h)
  exact div_le_div_of_nonneg_right (by exact_mod_cast hscaled) hpos.le
