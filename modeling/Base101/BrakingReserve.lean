/-
The reserve a jerk-limited velocity needs to stop accelerating.

An axis with acceleration `a > 0` whose jerk is bounded by `J` still gains
`a ^ 2 / (2 * J)` of velocity while the acceleration is taken back to zero.
`brakingReserve r a` is `2 * J` times that gain, relaxed below a corner
acceleration `r` to the tangent line at `r`: it is zero for `a ≤ 0`, linear up
to `r` and quadratic beyond.  The linear part keeps `a` below a multiple of the
remaining velocity, which a sampled controller needs near its target.

* `brakingReserve_sub` — braking at full jerk spends exactly the reserve it frees;
* `two_mul_le_brakingReserve`, `sq_le_brakingReserve` — the two bounds on `a` it carries.
-/
import Mathlib

section

variable {K : Type*} [Field K] [LinearOrder K]

/-- `2 * J` times the velocity reserved for taking the acceleration `a` back to
zero, with corner acceleration `r`. -/
def brakingReserve (r a : K) : K :=
  if a ≤ 0 then 0 else if a ≤ r then 2 * r * a else a ^ 2 + r ^ 2

variable {r a d : K}

theorem brakingReserve_of_nonpos (h : a ≤ 0) : brakingReserve r a = 0 := by
  rw [brakingReserve, if_pos h]

theorem brakingReserve_of_le (h : 0 < a) (hr : a ≤ r) : brakingReserve r a = 2 * r * a := by
  rw [brakingReserve, if_neg (not_le.mpr h), if_pos hr]

theorem brakingReserve_of_lt (h : 0 < a) (hr : r < a) : brakingReserve r a = a ^ 2 + r ^ 2 := by
  rw [brakingReserve, if_neg (not_le.mpr h), if_neg (not_le.mpr hr)]

variable [IsStrictOrderedRing K]

theorem brakingReserve_nonneg (hr : 0 ≤ r) : 0 ≤ brakingReserve r a := by
  rw [brakingReserve]
  split_ifs with h _
  · exact le_refl 0
  · have h' : 0 < a := not_le.mp h
    positivity
  · positivity

/-- The reserve is nowhere below its tangent line at the corner. -/
theorem two_mul_le_brakingReserve (hr : 0 ≤ r) : 2 * r * a ≤ brakingReserve r a := by
  rw [brakingReserve]
  split_ifs with h _
  · have h2r : 0 ≤ 2 * r := by positivity
    exact mul_nonpos_of_nonneg_of_nonpos h2r h
  · exact le_refl _
  · exact (two_mul_le_add_sq r a).trans_eq (add_comm _ _)

theorem sq_le_brakingReserve (h : 0 ≤ a) : a ^ 2 ≤ brakingReserve r a := by
  rw [brakingReserve]
  split_ifs with h0 hr
  · have ha : a = 0 := le_antisymm h0 h
    simp [ha]
  · have hle : a * a ≤ 2 * r * a := mul_le_mul_of_nonneg_right (by linarith) h
    linarith [sq a]
  · exact le_add_of_nonneg_right (sq_nonneg r)

/-- Taking `d` off the acceleration frees at least the square it spends. -/
theorem brakingReserve_sub (hd : 0 ≤ d) (h : 0 ≤ a - d) :
    brakingReserve r (a - d) + (a + (a - d)) * d ≤ brakingReserve r a := by
  rcases h.eq_or_lt with h0 | hpos
  · -- nothing is left: the whole square was spent
    have hda : a = d := by linarith
    have hsq : a ^ 2 ≤ brakingReserve r a := sq_le_brakingReserve (by linarith)
    rw [← h0, brakingReserve_of_nonpos (le_refl 0), ← hda]
    linarith
  · have ha : 0 < a := by linarith
    rcases le_or_gt a r with har | har
    · -- on the tangent line
      rw [brakingReserve_of_le ha har, brakingReserve_of_le hpos (by linarith)]
      have hspent : (a + (a - d)) * d ≤ 2 * r * d := mul_le_mul_of_nonneg_right (by linarith) hd
      linarith
    · rw [brakingReserve_of_lt ha har]
      rcases le_or_gt (a - d) r with hdr | hdr
      · -- from the parabola to the line, which lies below it
        rw [brakingReserve_of_le hpos hdr]
        have hline : 2 * r * (a - d) ≤ r ^ 2 + (a - d) ^ 2 := two_mul_le_add_sq r (a - d)
        linarith
      · -- on the parabola the two sides are equal
        rw [brakingReserve_of_lt hpos hdr]
        linarith

end
