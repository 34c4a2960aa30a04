/-
A profile that stops (`motion_profile.c` with target zero), over the reals.

Divided by its start, a profile stopping from `V` under the limits `A` and `J` is
the one stopping from a unit under `A / |V|` and `J / |V|`.  So two axes stop in
proportion as long as their unit profiles agree.  A unit profile first brakes at
full jerk, along `risingProfile`, until the approach laws take over; the
acceleration limit counts only if it is reached before that.

* `motionProfileSubstep_scale` — one substep commutes with scaling;
* `substep_unhindered` — short of the limit, a substep does not depend on it;
* `unhindered_substep` — a limit that is never reached is never met later;
* `nearStop_of_hindered` — nor does one that is reached only next to rest count.
-/
import Base101.GlideEnvelope

open Double

section

variable {A A' J h c m t : ℝ} {p q : MotionProfile ℝ}

/-! ### Scaling -/

def MotionProfile.scale (c : ℝ) (p : MotionProfile ℝ) : MotionProfile ℝ :=
  ⟨c * p.velocity, c * p.acceleration⟩

theorem desiredAcceleration_scale (hc : 0 < c) (error : ℝ) :
    desiredAcceleration (c * A) (c * J) (c * error) = c * desiredAcceleration A J error := by
  have hroot : √(c * J * |c * error|) = c * √(J * |error|) := by
    rw [abs_mul, abs_of_pos hc, show c * J * (c * |error|) = c ^ 2 * (J * |error|) by ring,
      Real.sqrt_mul (sq_nonneg c), Real.sqrt_sq hc.le]
  have hlin : 6.0 * |c * error| = c * (6.0 * |error|) := by
    rw [abs_mul, abs_of_pos hc, mul_left_comm]
  have hsign : c * error < 0 ↔ error < 0 := by
    constructor
    · intro h
      by_contra hpos
      have := mul_nonneg hc.le (not_lt.mp hpos)
      linarith
    · exact mul_neg_of_pos_of_neg hc
  rw [desiredAcceleration, desiredAcceleration]
  simp only [fabs_exact, fmin_exact, sqrt_real]
  rw [hroot, hlin, ← mul_min_of_nonneg _ _ hc.le, ← mul_min_of_nonneg _ _ hc.le]
  show (if c * error < 0 then -|c * _| else |c * _|) = c * (if error < 0 then -|_| else |_|)
  simp only [hsign, abs_mul, abs_of_pos hc]
  split
  · ring
  · rfl

theorem motionProfileSubstep_scale_pos (hc : 0 < c) :
    motionProfileSubstep 0 (c * A) (c * J) h (p.scale c) =
      (motionProfileSubstep 0 A J h p).scale c := by
  have hacc : (motionProfileSubstep 0 (c * A) (c * J) h (p.scale c)).acceleration =
      c * (motionProfileSubstep 0 A J h p).acceleration := by
    rw [substep_acceleration, substep_acceleration]
    simp only [MotionProfile.scale]
    rw [show 0 - c * p.velocity = c * (0 - p.velocity) by ring, desiredAcceleration_scale hc,
      mul_add, mul_max_of_nonneg _ _ hc.le, mul_min_of_nonneg _ _ hc.le]
    ring_nf
  have hvel : (motionProfileSubstep 0 (c * A) (c * J) h (p.scale c)).velocity =
      c * (motionProfileSubstep 0 A J h p).velocity := by
    rw [substep_velocity, hacc, substep_velocity]
    simp only [MotionProfile.scale]
    ring
  exact MotionProfile.ext hvel hacc

/-- **One substep commutes with scaling**, by either sign. -/
theorem motionProfileSubstep_scale (hA : 0 ≤ A) (hJh : 0 ≤ J * h) (hc : c ≠ 0) :
    motionProfileSubstep 0 (|c| * A) (|c| * J) h (p.scale c) =
      (motionProfileSubstep 0 A J h p).scale c := by
  rcases lt_or_gt_of_ne hc with hneg | hpos
  · -- the mirror image of a positive scale
    have hscale : ∀ r : MotionProfile ℝ, r.scale c = (r.scale |c|).mirror := by
      intro r
      simp [MotionProfile.scale, MotionProfile.mirror, abs_of_neg hneg]
    have habs : 0 < |c| := abs_pos.mpr hc
    have hJh' : 0 ≤ |c| * J * h := by
      rw [mul_assoc]
      positivity
    have hmirror : motionProfileSubstep (-0) (|c| * A) (|c| * J) h (p.scale |c|).mirror =
        (motionProfileSubstep 0 (|c| * A) (|c| * J) h (p.scale |c|)).mirror :=
      motionProfileSubstep_mirror (mul_nonneg habs.le hA) hJh'
    rw [neg_zero] at hmirror
    rw [hscale, hscale, hmirror, motionProfileSubstep_scale_pos habs]
  · rw [abs_of_pos hpos, motionProfileSubstep_scale_pos hpos]

/-! ### Stopping from below -/

/-- The acceleration the two approach laws ask for at the distance `x`. -/
noncomputable def approach (J x : ℝ) : ℝ := min (6 * x) √(J * x)

theorem approach_mono (hJ : 0 ≤ J) {x y : ℝ} (hxy : x ≤ y) : approach J x ≤ approach J y :=
  min_le_min (by linarith) (Real.sqrt_le_sqrt (mul_le_mul_of_nonneg_left hxy hJ))

theorem approach_nonneg {x : ℝ} (hx : 0 ≤ x) : 0 ≤ approach J x :=
  le_min (by linarith) (Real.sqrt_nonneg _)

theorem approach_pos {x : ℝ} (hJ : 0 < J) (hx : 0 < x) : 0 < approach J x :=
  lt_min (by linarith) (Real.sqrt_pos.mpr (mul_pos hJ hx))

theorem approach_le (x : ℝ) : approach J x ≤ 6 * x := min_le_left _ _

/-- A profile below zero that accelerates toward it, without overshoot. -/
structure Stopping (A J : ℝ) (p : MotionProfile ℝ) : Prop where
  below : BelowBound A J 0 p
  acceleration : 0 ≤ p.acceleration

theorem Stopping.velocity (hJ : 0 < J) (hp : Stopping A J p) : p.velocity ≤ 0 :=
  hp.below.2.velocity_le hJ

theorem Stopping.le_limit (hp : Stopping A J p) : p.acceleration ≤ A :=
  (le_abs_self _).trans hp.below.1

theorem stopping_zero (hA : 0 < A) (hJ : 0 < J) : Stopping A J MotionProfile.zero where
  below := (withinBounds_zero hA.le hJ (le_refl 0)).below
  acceleration := le_refl 0

theorem stop_acceleration (hA : 0 ≤ A) (hv : p.velocity ≤ 0) :
    (motionProfileSubstep 0 A J h p).acceleration =
      p.acceleration + max (-(J * h))
        (min (J * h) (min A (approach J (-p.velocity)) - p.acceleration)) := by
  have hx : 0 ≤ 0 - p.velocity := by linarith
  have six : (6.0 : ℝ) = 6 := by norm_num
  have hmag : 0 ≤ min A (min (6.0 * |0 - p.velocity|) √(J * |0 - p.velocity|)) := by positivity
  rw [substep_acceleration, desiredAcceleration]
  simp only [fabs_exact, fmin_exact, sqrt_real]
  rw [copysign_of_nonneg hmag hx, abs_of_nonneg hx, six, zero_sub]
  rfl

/-- The new acceleration lies between the old one and the demand. -/
theorem stop_acceleration_bounds (hA : 0 ≤ A) (hJh : 0 ≤ J * h) (hv : p.velocity ≤ 0) :
    min p.acceleration (min A (approach J (-p.velocity))) ≤
        (motionProfileSubstep 0 A J h p).acceleration ∧
      (motionProfileSubstep 0 A J h p).acceleration ≤
        max p.acceleration (min A (approach J (-p.velocity))) := by
  rw [stop_acceleration hA hv]
  set d := min A (approach J (-p.velocity))
  constructor
  · rcases le_total d p.acceleration with hd | hd
    · rw [min_eq_right hd]
      have hle : d - p.acceleration ≤ min (J * h) (d - p.acceleration) :=
        le_min (by linarith) (le_refl _)
      linarith [le_max_right (-(J * h)) (min (J * h) (d - p.acceleration))]
    · rw [min_eq_left hd]
      have hle : 0 ≤ min (J * h) (d - p.acceleration) := le_min hJh (by linarith)
      linarith [le_max_right (-(J * h)) (min (J * h) (d - p.acceleration))]
  · rcases le_total d p.acceleration with hd | hd
    · rw [max_eq_left hd]
      have hle : max (-(J * h)) (min (J * h) (d - p.acceleration)) ≤ 0 :=
        max_le (by linarith) ((min_le_right _ _).trans (by linarith))
      linarith
    · rw [max_eq_right hd]
      have hle : max (-(J * h)) (min (J * h) (d - p.acceleration)) ≤ d - p.acceleration :=
        max_le (by linarith) (min_le_right _ _)
      linarith

theorem stopping_substep (hA : 0 < A) (hJ : 0 < J) (hh : 0 < h) (hh' : h ≤ 1 / 200)
    (hp : Stopping A J p) : Stopping A J (motionProfileSubstep 0 A J h p) := by
  have hv := hp.velocity hJ
  have hdemand : 0 ≤ min A (approach J (-p.velocity)) :=
    le_min hA.le (approach_nonneg (by linarith))
  constructor
  · exact belowBound_substep hA hJ hh hh' (le_refl 0) hp.below
  · exact (le_min hp.acceleration hdemand).trans
      (stop_acceleration_bounds hA.le (mul_pos hJ hh).le hv).1

/-- The distance never grows. -/
theorem stop_velocity_le (hA : 0 < A) (hJ : 0 < J) (hh : 0 < h) (hh' : h ≤ 1 / 200)
    (hp : Stopping A J p) : p.velocity ≤ (motionProfileSubstep 0 A J h p).velocity := by
  have hacc := hp.acceleration
  have hacc' := (stopping_substep hA hJ hh hh' hp).acceleration
  rw [substep_velocity]
  have hgain : 0 ≤ (p.acceleration + (motionProfileSubstep 0 A J h p).acceleration) / 2 * h := by
    positivity
  linarith

/-- The acceleration stays below any bound on itself and on six times the distance. -/
theorem stop_acceleration_le (hA : 0 < A) (hJ : 0 < J) (hh : 0 < h) (hp : Stopping A J p) :
    (motionProfileSubstep 0 A J h p).acceleration ≤ max p.acceleration (6 * -p.velocity) := by
  refine (stop_acceleration_bounds hA.le (mul_pos hJ hh).le (hp.velocity hJ)).2.trans ?_
  exact max_le_max (le_refl _) ((min_le_right _ _).trans (approach_le _))

/-! ### Next to rest -/

/-- `M` times the profile is within the thresholds of the coast. -/
structure NearStop (M : ℝ) (p : MotionProfile ℝ) : Prop where
  velocity : M * -p.velocity < 1e-4
  acceleration : M * p.acceleration < 1e-3

theorem nearStop_zero (M : ℝ) : NearStop M MotionProfile.zero := by
  constructor <;> norm_num [MotionProfile.zero]

theorem nearStop_substep {M : ℝ} (hM : 0 ≤ M) (hA : 0 < A) (hJ : 0 < J) (hh : 0 < h)
    (hh' : h ≤ 1 / 200) (hp : Stopping A J p) (hnear : NearStop M p) :
    NearStop M (motionProfileSubstep 0 A J h p) := by
  have hv := stop_velocity_le hA hJ hh hh' hp
  have ha := stop_acceleration_le hA hJ hh hp
  obtain ⟨hnv, hna⟩ := hnear
  constructor
  · refine lt_of_le_of_lt ?_ hnv
    exact mul_le_mul_of_nonneg_left (by linarith) hM
  · refine lt_of_le_of_lt (mul_le_mul_of_nonneg_left ha hM) ?_
    rw [mul_max_of_nonneg _ _ hM]
    refine max_lt hna ?_
    norm_num at hnv ⊢
    linarith

/-! ### The rising phase -/

/-- The unit profile after braking at full jerk for the time `t`. -/
noncomputable def risingProfile (J t : ℝ) : MotionProfile ℝ := ⟨-(1 - J * t ^ 2 / 2), J * t⟩

theorem stopping_rising_zero (hA : 0 < A) (hJ : 0 < J) : Stopping A J (risingProfile J 0) where
  below := belowBound_of_nonpos hJ (by norm_num [risingProfile]) (by simp [risingProfile])
    (by simpa [risingProfile] using hA.le)
  acceleration := by simp [risingProfile]

theorem substep_rising (hA : 0 ≤ A) (hv : J * t ^ 2 / 2 ≤ 1)
    (hJh : 0 ≤ J * h) (hdemand : J * (t + h) ≤ min A (approach J (1 - J * t ^ 2 / 2))) :
    motionProfileSubstep 0 A J h (risingProfile J t) = risingProfile J (t + h) := by
  have hacc : (motionProfileSubstep 0 A J h (risingProfile J t)).acceleration = J * (t + h) := by
    rw [stop_acceleration hA (by simp only [risingProfile]; linarith)]
    simp only [risingProfile, neg_neg]
    rw [min_eq_left (by linarith), max_eq_right (by linarith)]
    ring
  refine MotionProfile.ext ?_ hacc
  rw [substep_velocity, hacc]
  simp only [risingProfile]
  ring

/-- Up to the end of the rising phase every limit from `A` on leaves it alone. -/
theorem substep_rising_until {k s : ℝ} (hA : 0 ≤ A) (hAA' : A ≤ A') (hJ : 0 ≤ J)
    (hJt : J * t ≤ A) (hasked : A < approach J (1 - J * t ^ 2 / 2)) (hs : 0 ≤ s) (hk : 0 ≤ k)
    (hst : s + k ≤ t) :
    motionProfileSubstep 0 A' J k (risingProfile J s) = risingProfile J (s + k) := by
  have hsq : s ^ 2 ≤ t ^ 2 := pow_le_pow_left₀ hs (by linarith) 2
  have hdist : J * s ^ 2 / 2 ≤ J * t ^ 2 / 2 := by linarith [mul_le_mul_of_nonneg_left hsq hJ]
  have hnext : J * (s + k) ≤ A := (mul_le_mul_of_nonneg_left hst hJ).trans hJt
  have hasked' : A < approach J (1 - J * s ^ 2 / 2) :=
    hasked.trans_le (approach_mono hJ (by linarith))
  have hv : 0 < 6 * (1 - J * s ^ 2 / 2) := hA.trans_lt (hasked'.trans_le (approach_le _))
  refine substep_rising (hA.trans hAA') (by linarith) (mul_nonneg hJ hk) ?_
  exact le_min (hnext.trans hAA') (hnext.trans hasked'.le)

/-- A time is made of steps short enough to be one substep each. -/
theorem exists_short_steps (ht : 0 ≤ t) : ∃ (n : ℕ) (k : ℝ), 0 < k ∧ k ≤ 1 / 200 ∧ n * k = t := by
  rcases ht.eq_or_lt with rfl | ht
  · exact ⟨0, 1 / 200, by norm_num, le_refl _, by simp⟩
  · have hn : 200 * t ≤ (⌈200 * t⌉₊ : ℝ) := Nat.le_ceil _
    have hpos : (0 : ℝ) < (⌈200 * t⌉₊ : ℝ) := lt_of_lt_of_le (by linarith) hn
    refine ⟨⌈200 * t⌉₊, t / (⌈200 * t⌉₊ : ℝ), div_pos ht hpos, ?_, mul_div_cancel₀ _ hpos.ne'⟩
    rw [div_le_iff₀ hpos]
    linarith

/-! ### The acceleration limit -/

/-- A substep that cannot reach `m`, or is not asked for more than `m`, is the same
under every limit from `m` on. -/
theorem substep_unhindered (hm : 0 ≤ m) (hA : m ≤ A) (hv : p.velocity ≤ 0)
    (hfree : approach J (-p.velocity) ≤ m ∨ p.acceleration + J * h ≤ m) :
    motionProfileSubstep 0 A J h p = motionProfileSubstep 0 m J h p := by
  have hacc : (motionProfileSubstep 0 A J h p).acceleration =
      (motionProfileSubstep 0 m J h p).acceleration := by
    rw [stop_acceleration (hm.trans hA) hv, stop_acceleration hm hv]
    rcases le_or_gt (approach J (-p.velocity)) m with hasked | hasked
    · rw [min_eq_right hasked, min_eq_right (hasked.trans hA)]
    · have hreach : p.acceleration + J * h ≤ m := hfree.resolve_left (not_le.mpr hasked)
      -- both demands are beyond one step of jerk
      have hA' : m ≤ min A (approach J (-p.velocity)) := le_min hA hasked.le
      rw [min_eq_left hasked.le, min_eq_left (by linarith : J * h ≤ m - p.acceleration),
        min_eq_left (by linarith)]
  refine MotionProfile.ext ?_ hacc
  rw [substep_velocity, substep_velocity, hacc]

/-- Still rising below `m`, or no longer asked for more than `m`. -/
def Unhindered (m J : ℝ) (p : MotionProfile ℝ) : Prop :=
  (∃ t, 0 ≤ t ∧ J * t ≤ m ∧ p = risingProfile J t) ∨ approach J (-p.velocity) ≤ m

/-- On its way from a unit to rest the profile never reaches the acceleration `m`. -/
def NeverReaches (m J : ℝ) : Prop :=
  ∀ t, 0 ≤ t → min (J * (t + 1 / 200)) (approach J (1 - J * t ^ 2 / 2)) ≤ m

/-- Off the limit, the phase goes on. -/
theorem unhindered_substep (hm : 0 < m) (hJ : 0 < J) (hh : 0 < h) (hh' : h ≤ 1 / 200)
    (hp : Stopping m J p) (hphase : Unhindered m J p)
    (hfree : approach J (-p.velocity) ≤ m ∨ p.acceleration + J * h ≤ m) :
    Unhindered m J (motionProfileSubstep 0 m J h p) := by
  rcases le_or_gt (approach J (-p.velocity)) m with hasked | hasked
  · right
    have hv := stop_velocity_le hm hJ hh hh' hp
    exact (approach_mono hJ.le (by linarith)).trans hasked
  · have hreach : p.acceleration + J * h ≤ m := hfree.resolve_left (not_le.mpr hasked)
    rcases hphase with ⟨t, ht, htm, rfl⟩ | hphase
    · left
      have hv := hp.velocity hJ
      simp only [risingProfile, neg_neg] at hasked hreach hv
      have hnext : J * (t + h) ≤ m := by linarith
      refine ⟨t + h, by linarith, hnext, ?_⟩
      refine substep_rising hm.le (by linarith) (mul_pos hJ hh).le ?_
      exact le_min hnext (hnext.trans hasked.le)
    · exact absurd hphase (not_le.mpr hasked)

/-- A limit that is never reached leaves every substep free. -/
theorem NeverReaches.free (hnever : NeverReaches m J) (hJ : 0 < J) (hh' : h ≤ 1 / 200)
    (hphase : Unhindered m J p) :
    approach J (-p.velocity) ≤ m ∨ p.acceleration + J * h ≤ m := by
  rcases hphase with ⟨t, ht, -, rfl⟩ | hphase
  · simp only [risingProfile, neg_neg]
    rcases min_le_iff.mp (hnever t ht) with hreach | hasked
    · right
      nlinarith
    · exact Or.inl hasked
  · exact Or.inl hphase

/-- A substep that is held at the limit `m` or above it ends next to rest, when at
`m` the profile is that close. -/
theorem nearStop_of_hindered {M : ℝ} (hM : 0 < M) (hJ : 0 < J) (hh : 0 < h)
    (hh' : h ≤ 1 / 200) (hm : 0 < m) (hA : m ≤ A) (hclose : M * (1 - m ^ 2 / (2 * J)) ≤ 1e-4)
    (hp : Stopping A J p) (hphase : Unhindered m J p)
    (hheld : ¬ (approach J (-p.velocity) ≤ m ∨ p.acceleration + J * h ≤ m)) :
    NearStop M (motionProfileSubstep 0 A J h p) := by
  rw [not_or, not_le, not_le] at hheld
  obtain ⟨hasked, hreach⟩ := hheld
  rcases hphase with ⟨t, ht, htm, rfl⟩ | hphase
  · have hv := hp.velocity hJ
    have hA0 : 0 < A := hm.trans_le hA
    have hacc := stop_acceleration_bounds (h := h) hA0.le (mul_pos hJ hh).le hv
    have hacc6 := stop_acceleration_le hA0 hJ hh hp
    have hexact := stop_acceleration (J := J) (h := h) hA0.le hv
    have hvel := substep_velocity 0 A J h (risingProfile J t)
    set a' := (motionProfileSubstep 0 A J h (risingProfile J t)).acceleration with ha'
    set v' := (motionProfileSubstep 0 A J h (risingProfile J t)).velocity with hv'
    simp only [risingProfile, neg_neg] at hv hasked hreach hexact hacc6 hvel
    set x := 1 - J * t ^ 2 / 2 with hx
    have hsix : approach J x ≤ 6 * x := approach_le x
    -- the new acceleration is at least `m`
    have hdemand : m ≤ min A (approach J x) := le_min hA hasked.le
    have hm' : m ≤ a' := by
      have hclamp : m - J * t ≤ min (J * h) (min A (approach J x) - J * t) :=
        le_min (by linarith) (by linarith)
      linarith [le_max_right (-(J * h)) (min (J * h) (min A (approach J x) - J * t))]
    have ha6 : a' ≤ 6 * x := hacc6.trans (max_le (by linarith) (le_refl _))
    -- so the distance falls below the one at which full jerk reaches `m`
    have htime : m / J < t + h := by
      rw [div_lt_iff₀ hJ]
      linarith
    have hmJ : J * (m / J) = m := mul_div_cancel₀ _ hJ.ne'
    have hspan : m ^ 2 / (2 * J) < J * t ^ 2 / 2 + (J * t + m) / 2 * h := by
      have hsq : m ^ 2 / (2 * J) = J * (m / J) ^ 2 / 2 := by
        field_simp
      have hfactor : 0 < (J * t + m) * (t + h - m / J) :=
        mul_pos (by positivity) (by linarith)
      rw [hsq]
      linear_combination hfactor / 2 + (m / J - t) / 2 * hmJ
    have hgain : (J * t + m) / 2 * h ≤ (J * t + a') / 2 * h := by
      refine mul_le_mul_of_nonneg_right ?_ hh.le
      linarith
    have hdist : -v' < 1 - m ^ 2 / (2 * J) := by linarith
    have hfar : 97 / 100 * x ≤ -v' := by
      have hloss : (J * t + a') / 2 * h ≤ 6 * x * (1 / 200) :=
        mul_le_mul (by linarith) hh' hh.le (by linarith)
      linarith
    have hMv : M * -v' < 1e-4 := (mul_lt_mul_of_pos_left hdist hM).trans_le hclose
    constructor
    · exact hMv
    · have hMx : M * (97 / 100 * x) ≤ M * -v' := mul_le_mul_of_nonneg_left hfar hM.le
      have hMa : M * a' ≤ M * (6 * x) := mul_le_mul_of_nonneg_left ha6 hM.le
      norm_num at hMv ⊢
      linarith
  · exact absurd hphase (not_le.mpr hasked)

/-! ### Two axes in lockstep -/

/-- One substep of each axis, under its own limits. -/
def KeepsLockstep (A A' J J' M : ℝ) (Phase : MotionProfile ℝ → Prop) : Prop :=
  ∀ h p, 0 < h → h ≤ 1 / 200 → Stopping A J p → Stopping A' J' p → Phase p →
    (motionProfileSubstep 0 A J h p = motionProfileSubstep 0 A' J' h p ∧
      Phase (motionProfileSubstep 0 A J h p)) ∨
    (NearStop M (motionProfileSubstep 0 A J h p) ∧ NearStop M (motionProfileSubstep 0 A' J' h p))

/-- Under equal limits the axes agree. -/
theorem keepsLockstep_of_eq (A J M : ℝ) : KeepsLockstep A A J J M fun _ => True :=
  fun _ _ _ _ _ _ _ => Or.inl ⟨rfl, trivial⟩

/-- From within the threshold of the coast, every substep stays next to rest. -/
theorem keepsLockstep_of_small {J' M : ℝ} (hM : 0 < M) (hM' : M ≤ 1e-4) (hA : 0 < A)
    (hA' : 0 < A') (hJ : 0 < J) (hJ' : 0 < J') :
    KeepsLockstep A A' J J' M fun p => p = ⟨-1, 0⟩ := by
  intro h p hh hh' hp hp' hstart
  have near : ∀ {B K : ℝ}, 0 < B → 0 < K → Stopping B K p →
      NearStop M (motionProfileSubstep 0 B K h p) := by
    intro B K hB hK hstop
    have hv : p.velocity ≤ 0 := hstop.velocity hK
    have hle := stop_acceleration_le hB hK hh hstop
    have hexact := stop_acceleration (J := K) (h := h) hB.le hv
    have hvel := substep_velocity 0 B K h p
    rw [hstart] at hle hexact hvel ⊢
    set a' := (motionProfileSubstep 0 B K h ⟨-1, 0⟩).acceleration
    have hpos : 0 < a' := by
      have hdemand : 0 < min B (approach K 1) := lt_min hB (approach_pos hK one_pos)
      have hclamp : 0 < min (K * h) (min B (approach K 1)) := lt_min (mul_pos hK hh) hdemand
      simp only [neg_neg, zero_add, sub_zero] at hexact
      rw [hexact]
      exact lt_max_of_lt_right hclamp
    have hgain : 0 < (0 + a') / 2 * h := by positivity
    constructor
    · rw [hvel]
      have hlt : -((-1 : ℝ) + (0 + a') / 2 * h) < 1 := by linarith
      calc M * -((-1 : ℝ) + (0 + a') / 2 * h) < M * 1 := mul_lt_mul_of_pos_left hlt hM
        _ ≤ 1e-4 := by linarith
    · have hsix : a' ≤ 6 := by simpa using hle
      have hMa : M * a' ≤ M * 6 := mul_le_mul_of_nonneg_left hsix hM.le
      norm_num at hM' ⊢
      linarith
  exact Or.inr ⟨near hA hJ hp, near hA' hJ' hp'⟩

/-- With one jerk the axes agree until the tighter limit `m` is reached. -/
theorem keepsLockstep_of_limit {M : ℝ} (hM : 0 < M) (hJ : 0 < J) (hm : 0 < m) (hA : m ≤ A)
    (hA' : m ≤ A') (hlimit : NeverReaches m J ∨ M * (1 - m ^ 2 / (2 * J)) ≤ 1e-4) :
    KeepsLockstep A A' J J M (fun p => Stopping m J p ∧ Unhindered m J p) := by
  intro h p hh hh' hp hp' hphase
  obtain ⟨hpm, hphase⟩ := hphase
  by_cases hfree : approach J (-p.velocity) ≤ m ∨ p.acceleration + J * h ≤ m
  · left
    have hv := hpm.velocity hJ
    rw [substep_unhindered hm.le hA hv hfree, substep_unhindered hm.le hA' hv hfree]
    exact ⟨rfl, stopping_substep hm hJ hh hh' hpm, unhindered_substep hm hJ hh hh' hpm hphase hfree⟩
  · right
    rcases hlimit with hnever | hclose
    · exact absurd (hnever.free hJ hh' hphase) hfree
    · exact ⟨nearStop_of_hindered hM hJ hh hh' hm hA hclose hp hphase hfree,
        nearStop_of_hindered hM hJ hh hh' hm hA' hclose hp' hphase hfree⟩

/-! ### Axes that part -/

/-- Two jerks part in the first substep, if it is short, and before the coast. -/
theorem exists_apart_of_jerk {J' M : ℝ} (hA : 0 < A) (hA' : 0 < A') (hJ : 0 < J) (hJ' : 0 < J')
    (hM : 1e-4 < M) (hne : J ≠ J') :
    ∃ h, 0 < h ∧ h ≤ 1 / 200 ∧
      motionProfileSubstep 0 A J h (risingProfile J 0) = risingProfile J h ∧
      motionProfileSubstep 0 A' J' h (risingProfile J' 0) = risingProfile J' h ∧
      (risingProfile J h).velocity ≠ (risingProfile J' h).velocity ∧
      1e-4 ≤ M * -(risingProfile J h).velocity ∧ 1e-4 ≤ M * -(risingProfile J' h).velocity := by
  have hM0 : 0 < M := lt_trans (by norm_num) hM
  have room : 0 < 1 - 1e-4 / M := by
    rw [sub_pos, div_lt_one hM0]
    exact hM
  have demand : ∀ {B K : ℝ}, 0 < B → 0 < K → 0 < min B (approach K 1) := by
    intro B K hB hK
    exact lt_min hB (approach_pos hK one_pos)
  -- short enough for the jerk limit to bind and for the distance to stay
  have short : ∀ {B K : ℝ}, 0 < B → 0 < K →
      ∃ h₀ > 0, ∀ h, 0 < h → h ≤ 1 / 200 → h ≤ h₀ →
        motionProfileSubstep 0 B K h (risingProfile K 0) = risingProfile K h ∧
        1e-4 ≤ M * -(risingProfile K h).velocity := by
    intro B K hB hK
    refine ⟨min (min B (approach K 1) / K) ((1 - 1e-4 / M) / K), ?_, ?_⟩
    · exact lt_min (div_pos (demand hB hK) hK) (div_pos room hK)
    · intro h hh hh' hle
      have hjerk : K * h ≤ min B (approach K 1) := by
        have hdiv := (hle.trans (min_le_left _ _))
        rw [le_div_iff₀ hK] at hdiv
        linarith
      have hdist : K * h ≤ 1 - 1e-4 / M := by
        have hdiv := (hle.trans (min_le_right _ _))
        rw [le_div_iff₀ hK] at hdiv
        linarith
      constructor
      · have hrise := substep_rising (A := B) (J := K) (h := h) (t := 0) hB.le (by norm_num)
          (mul_pos hK hh).le (by simpa using hjerk)
        rwa [zero_add] at hrise
      · have hsq : K * h ^ 2 / 2 ≤ K * h := by nlinarith [mul_pos hK hh]
        have hkeep : 1e-4 / M ≤ -(risingProfile K h).velocity := by
          simp only [risingProfile, neg_neg]
          linarith
        rw [div_le_iff₀ hM0] at hkeep
        linarith
  obtain ⟨h₁, hpos₁, hshort₁⟩ := short hA hJ
  obtain ⟨h₂, hpos₂, hshort₂⟩ := short hA' hJ'
  set h := min (1 / 200) (min h₁ h₂) with hh
  have hpos : 0 < h := lt_min (by norm_num) (lt_min hpos₁ hpos₂)
  have hle : h ≤ 1 / 200 := min_le_left _ _
  have hle₁ : h ≤ h₁ := (min_le_right _ _).trans (min_le_left _ _)
  have hle₂ : h ≤ h₂ := (min_le_right _ _).trans (min_le_right _ _)
  obtain ⟨hrise₁, hkeep₁⟩ := hshort₁ h hpos hle hle₁
  obtain ⟨hrise₂, hkeep₂⟩ := hshort₂ h hpos hle hle₂
  refine ⟨h, hpos, hle, hrise₁, hrise₂, ?_, hkeep₁, hkeep₂⟩
  intro heq
  simp only [risingProfile] at heq
  have hdiff : (J - J') * h ^ 2 = 0 := by linarith
  rcases mul_eq_zero.mp hdiff with hzero | hzero
  · exact hne (sub_eq_zero.mp hzero)
  · exact absurd hzero (pow_pos hpos 2).ne'

/-- Held at `A`, one axis falls behind the other. -/
theorem substep_apart {u : ℝ} (hA : 0 < A) (hAA' : A < A') (hJt : J * t ≤ A)
    (hasked : A < approach J (1 - J * t ^ 2 / 2)) (htu : t < u) (hJu : A < J * u) :
    (motionProfileSubstep 0 A J (u - t) (risingProfile J t)).velocity ≠
        (motionProfileSubstep 0 A' J (u - t) (risingProfile J t)).velocity ∧
      (motionProfileSubstep 0 A J (u - t) (risingProfile J t)).acceleration ≤ J * u ∧
      (motionProfileSubstep 0 A' J (u - t) (risingProfile J t)).acceleration ≤ J * u := by
  have hh : 0 < u - t := by linarith
  have hv : (risingProfile J t).velocity ≤ 0 := by
    have hpos : 0 < 6 * (1 - J * t ^ 2 / 2) := hA.trans (hasked.trans_le (approach_le _))
    simp only [risingProfile]
    linarith
  have hacc := stop_acceleration (J := J) (h := u - t) hA.le hv
  have hacc' := stop_acceleration (J := J) (h := u - t) (hA.trans hAA').le hv
  set a := (motionProfileSubstep 0 A J (u - t) (risingProfile J t)).acceleration with ha
  set a' := (motionProfileSubstep 0 A' J (u - t) (risingProfile J t)).acceleration with ha'
  simp only [risingProfile, neg_neg] at hacc hacc'
  have hheld : a = A := by
    rw [hacc, min_eq_left hasked.le, min_eq_right (by linarith), max_eq_right (by linarith)]
    ring
  have hdemand : A < min A' (approach J (1 - J * t ^ 2 / 2)) := lt_min hAA' hasked
  have hfree : a' = min (J * u) (min A' (approach J (1 - J * t ^ 2 / 2))) := by
    rw [hacc', max_eq_right (le_min (by linarith) (by linarith)), ← min_add_add_left]
    congr 1 <;> ring
  have hmore : A < a' := by
    rw [hfree]
    exact lt_min hJu hdemand
  refine ⟨?_, hheld.trans_le hJu.le, hfree.trans_le (min_le_left _ _)⟩
  rw [substep_velocity, substep_velocity, ← ha, ← ha', hheld]
  intro heq
  have hgap : (a' - A) * (u - t) = 0 := by linarith
  rcases mul_eq_zero.mp hgap with hzero | hzero
  · linarith
  · linarith

/-- No substep comes closer than full jerk would. -/
theorem le_rising_substep {u : ℝ} (htu : t ≤ u)
    (hacc : (motionProfileSubstep 0 A J (u - t) (risingProfile J t)).acceleration ≤ J * u) :
    1 - J * u ^ 2 / 2 ≤ -(motionProfileSubstep 0 A J (u - t) (risingProfile J t)).velocity := by
  have hgain : (J * t + (motionProfileSubstep 0 A J (u - t)
      (risingProfile J t)).acceleration) / 2 * (u - t) ≤ (J * t + J * u) / 2 * (u - t) := by
    refine mul_le_mul_of_nonneg_right ?_ (by linarith)
    linarith
  rw [substep_velocity]
  simp only [risingProfile] at hgain ⊢
  linarith

/-- The time until which full jerk leaves the distance `1e-4 / M`. -/
theorem exists_coast_time {M : ℝ} (hA : 0 < A) (hJ : 0 < J) (hM : 0 < M)
    (hfar : 1e-4 < M * (1 - A ^ 2 / (2 * J))) :
    ∃ s, A / J < s ∧ ∀ u, 0 ≤ u → u ≤ s → 1e-4 ≤ M * (1 - J * u ^ 2 / 2) := by
  have hspan : A ^ 2 / (2 * J) < 1 - 1e-4 / M := by
    have hdiv : 1e-4 / M < 1 - A ^ 2 / (2 * J) := by
      rw [div_lt_iff₀ hM]
      linarith
    linarith
  set room := 1 - 1e-4 / M with hroom
  have hroom0 : 0 < room := lt_trans (by positivity) hspan
  refine ⟨√(2 * room / J), ?_, ?_⟩
  · rw [Real.lt_sqrt (by positivity), div_pow, div_lt_div_iff₀ (by positivity) hJ]
    rw [div_lt_iff₀ (by positivity)] at hspan
    nlinarith
  · intro u hu hus
    have hsq : u ^ 2 ≤ √(2 * room / J) ^ 2 := pow_le_pow_left₀ hu hus 2
    rw [Real.sq_sqrt (by positivity), le_div_iff₀ hJ] at hsq
    have hdist : 1e-4 / M ≤ 1 - J * u ^ 2 / 2 := by linarith
    rw [div_le_iff₀ hM] at hdist
    linarith

/-- A tighter limit that is reached parts the axes at the end of the rising phase. -/
theorem exists_apart_of_limit {M : ℝ} (hA : 0 < A) (hJ : 0 < J) (hAA' : A < A')
    (hfar : 1e-4 < M * (1 - A ^ 2 / (2 * J))) (hM : 0 < M) (hreached : ¬ NeverReaches A J) :
    ∃ t h, 0 ≤ t ∧ 0 < h ∧ h ≤ 1 / 200 ∧ J * t ≤ A ∧ A < approach J (1 - J * t ^ 2 / 2) ∧
      1e-4 ≤ M * -(risingProfile J t).velocity ∧
      (motionProfileSubstep 0 A J h (risingProfile J t)).velocity ≠
        (motionProfileSubstep 0 A' J h (risingProfile J t)).velocity ∧
      1e-4 ≤ M * -(motionProfileSubstep 0 A J h (risingProfile J t)).velocity ∧
      1e-4 ≤ M * -(motionProfileSubstep 0 A' J h (risingProfile J t)).velocity := by
  rw [NeverReaches] at hreached
  push Not at hreached
  obtain ⟨t₀, ht₀, hreach⟩ := hreached
  obtain ⟨hjerk, hasked⟩ := lt_min_iff.mp hreach
  obtain ⟨s, hAs, hcoast⟩ := exists_coast_time hA hJ hM hfar
  -- rise no longer than to `A`, and end before the coast
  set t := min t₀ (A / J) with ht
  have ht0 : 0 ≤ t := le_min ht₀ (by positivity)
  have htA : t ≤ A / J := min_le_right _ _
  have hend : A / J < t + 1 / 200 := by
    rcases min_cases t₀ (A / J) with ⟨hmin, -⟩ | ⟨hmin, -⟩
    · rw [ht, hmin, div_lt_iff₀ hJ]
      linarith
    · rw [ht, hmin]
      linarith
  have hasked' : A < approach J (1 - J * t ^ 2 / 2) := by
    refine hasked.trans_le (approach_mono hJ.le ?_)
    have hsq : t ^ 2 ≤ t₀ ^ 2 := pow_le_pow_left₀ ht0 (min_le_left _ _) 2
    linarith [mul_le_mul_of_nonneg_left hsq hJ.le]
  set u := min (t + 1 / 200) s with hu
  have huA : A / J < u := lt_min hend hAs
  have htu : t < u := htA.trans_lt huA
  have hh' : u - t ≤ 1 / 200 := by linarith [min_le_left (t + 1 / 200) s]
  have hJt : J * t ≤ A := by
    rw [le_div_iff₀ hJ] at htA
    linarith
  have hJu : A < J * u := by
    rw [div_lt_iff₀ hJ] at huA
    linarith
  obtain ⟨happart, hacc, hacc'⟩ := substep_apart hA hAA' hJt hasked' htu hJu
  have hkeep : 1e-4 ≤ M * (1 - J * u ^ 2 / 2) :=
    hcoast u (ht0.trans htu.le) (min_le_right _ _)
  have hrising : 1e-4 ≤ M * -(risingProfile J t).velocity := by
    simp only [risingProfile, neg_neg]
    exact hcoast t ht0 (htu.le.trans (min_le_right _ _))
  exact ⟨t, u - t, ht0, by linarith, hh', hJt, hasked', hrising, happart,
    hkeep.trans (mul_le_mul_of_nonneg_left (le_rising_substep htu.le hacc) hM.le),
    hkeep.trans (mul_le_mul_of_nonneg_left (le_rising_substep htu.le hacc') hM.le)⟩

end
