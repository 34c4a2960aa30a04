/-
The bounds of one step of a profile (`motion_profile.c`), over the reals.

A substep changes the velocity and the acceleration by at most the limits times its
length, and keeps the acceleration within its limit.  The substeps of a step are all of
one length, and together as long as the step.

* `motionProfileLoop_ramp` — between any two substeps of a step;
* `profile_step_bounds` — every accepted call succeeds within the bounds, and a call that
  fails leaves the profile as it was.
-/
import Base101.MotionProfile

section Model

variable {F : Type} [Double F]

/-- `motion_profile_step`: the result, and what `p` points to afterwards; `none` is the
null pointer. -/
def motionProfileStepAt (p : Option (MotionProfile F)) (target accelLimit jerkLimit dt : F) :
    Bool × Option (MotionProfile F) :=
  match p with
  | none => (false, none)
  | some profile =>
    -- all tests come before the first assignment
    match motionProfileStep profile target accelLimit jerkLimit dt with
    | none => (false, some profile)
    | some stepped => (true, some stepped)

end Model

variable {target A J h dt : ℝ} {p q : MotionProfile ℝ}

/-! ### Bounded change -/

/-- A change of at most the limits times the time. -/
structure RampBound (A J dt : ℝ) (p q : MotionProfile ℝ) : Prop where
  velocity : |q.velocity - p.velocity| ≤ A * dt
  acceleration : |q.acceleration - p.acceleration| ≤ J * dt

theorem RampBound.refl (A J : ℝ) (p : MotionProfile ℝ) : RampBound A J 0 p p := by
  constructor
  · rw [sub_self, abs_zero, mul_zero]
  · rw [sub_self, abs_zero, mul_zero]

theorem RampBound.trans {dt' : ℝ} {r : MotionProfile ℝ} (hpq : RampBound A J dt p q)
    (hqr : RampBound A J dt' q r) : RampBound A J (dt + dt') p r := by
  constructor
  · calc |r.velocity - p.velocity|
        ≤ |r.velocity - q.velocity| + |q.velocity - p.velocity| := abs_sub_le _ _ _
      _ ≤ A * (dt + dt') := by linarith [hpq.velocity, hqr.velocity]
  · calc |r.acceleration - p.acceleration|
        ≤ |r.acceleration - q.acceleration| + |q.acceleration - p.acceleration| :=
          abs_sub_le _ _ _
      _ ≤ J * (dt + dt') := by linarith [hpq.acceleration, hqr.acceleration]

theorem motionProfileSubstep_ramp (target : ℝ) (hA : 0 ≤ A) (hJ : 0 ≤ J) (hh : 0 ≤ h)
    (hp : |p.acceleration| ≤ A) : RampBound A J h p (motionProfileSubstep target A J h p) := by
  have hJh : 0 ≤ J * h := mul_nonneg hJ hh
  have hp' : |(motionProfileSubstep target A J h p).acceleration| ≤ A :=
    motionProfileSubstep_abs_acceleration hA hJh hp
  constructor
  · rw [substep_velocity, add_sub_cancel_left, abs_mul, abs_of_nonneg hh]
    refine mul_le_mul_of_nonneg_right ?_ hh
    obtain ⟨h1, h2⟩ := abs_le.mp hp
    obtain ⟨h3, h4⟩ := abs_le.mp hp'
    exact abs_le.mpr ⟨by linarith, by linarith⟩
  · rw [substep_acceleration, add_sub_cancel_left, abs_le]
    constructor
    · exact le_max_left _ _
    · exact max_le (by linarith) (min_le_left _ _)

/-! ### The substeps of a step -/

theorem motionProfileLoop_abs_acceleration (hA : 0 ≤ A) (hJ : 0 ≤ J) (hdt : 0 < dt)
    (hp : |p.acceleration| ≤ A) (i : ℕ) :
    |(motionProfileLoop target A J dt i p).acceleration| ≤ A := by
  have hJh : 0 ≤ J * (dt / (motionProfileSteps dt : ℝ)) :=
    mul_nonneg hJ (motionProfileSteps_bounds hdt).1.le
  induction i with
  | zero => exact hp
  | succ i ih =>
    rw [motionProfileLoop_succ]
    exact motionProfileSubstep_abs_acceleration hA hJh ih

/-- From one substep to a later one. -/
theorem motionProfileLoop_ramp (hA : 0 ≤ A) (hJ : 0 ≤ J) (hdt : 0 < dt)
    (hp : |p.acceleration| ≤ A) (i n : ℕ) :
    RampBound A J (n * (dt / (motionProfileSteps dt : ℝ)))
      (motionProfileLoop target A J dt i p) (motionProfileLoop target A J dt (i + n) p) := by
  have hh := (motionProfileSteps_bounds hdt).1
  induction n with
  | zero =>
    rw [Nat.cast_zero, zero_mul]
    exact RampBound.refl A J _
  | succ n ih =>
    rw [← Nat.add_assoc, motionProfileLoop_succ, Nat.cast_succ, add_mul, one_mul]
    exact ih.trans (motionProfileSubstep_ramp target hA hJ hh.le
      (motionProfileLoop_abs_acceleration hA hJ hdt hp (i + n)))

/-- The substeps are together as long as the step. -/
theorem motionProfileSteps_total (hdt : 0 < dt) :
    (motionProfileSteps dt : ℝ) * (dt / (motionProfileSteps dt : ℝ)) = dt := by
  have hh := (motionProfileSteps_bounds hdt).1
  have hsteps : (motionProfileSteps dt : ℝ) ≠ 0 := by
    intro hzero
    rw [hzero, div_zero] at hh
    exact lt_irrefl _ hh
  exact mul_div_cancel₀ _ hsteps

/-- One step changes a profile by at most its limits times the time. -/
theorem motionProfileStep_ramp (hA : 0 < A) (hJ : 0 < J) (hdt : 0 < dt) (hdt' : dt ≤ 0.1)
    (hp : |p.acceleration| ≤ A) (hq : motionProfileStep p target A J dt = some q) :
    RampBound A J dt p q := by
  rw [motionProfileStep_eq_some hA hJ hdt hdt' hp] at hq
  obtain rfl := Option.some.inj hq
  have hloop : RampBound A J _ (motionProfileLoop target A J dt 0 p) _ :=
    motionProfileLoop_ramp hA.le hJ.le hdt hp 0 (motionProfileSteps dt)
  rw [motionProfileSteps_total hdt, Nat.zero_add] at hloop
  exact hloop

/-! ### Calls -/

/-- A call that fails leaves the profile as it was, whatever the arithmetic. -/
theorem motionProfileStepAt_false {F : Type} [Double F] {p : Option (MotionProfile F)}
    {target accelLimit jerkLimit dt : F}
    (hfalse : (motionProfileStepAt p target accelLimit jerkLimit dt).1 = false) :
    (motionProfileStepAt p target accelLimit jerkLimit dt).2 = p := by
  cases p with
  | none => rfl
  | some profile =>
    rw [motionProfileStepAt] at hfalse ⊢
    cases hstep : motionProfileStep profile target accelLimit jerkLimit dt with
    | none => rfl
    | some stepped =>
      rw [hstep] at hfalse
      cases hfalse

/-- **The bounds of a step.**  From an acceleration within its limit every step of at most
0.1 s succeeds, and the acceleration is within its limit after each of its substeps.  Over
the whole step, and over any of its substeps that follow one another, the acceleration
changes by at most the jerk limit times the time and the velocity by at most the
acceleration limit times the time.  A call that fails changes nothing. -/
theorem profile_step_bounds (hA : 0 < A) (hJ : 0 < J) :
    (∀ (p : MotionProfile ℝ) (target dt : ℝ), |p.acceleration| ≤ A → 0 < dt → dt ≤ 0.1 →
      ∃ q, motionProfileStepAt (some p) target A J dt = (true, some q) ∧
        |q.acceleration| ≤ A ∧ |q.acceleration - p.acceleration| ≤ J * dt ∧
        |q.velocity - p.velocity| ≤ A * dt ∧
        motionProfileLoop target A J dt 0 p = p ∧
        motionProfileLoop target A J dt (motionProfileSteps dt) p = q ∧
        ∀ i j, i ≤ j → j ≤ motionProfileSteps dt →
          let h := dt / (motionProfileSteps dt : ℝ)
          let pi := motionProfileLoop target A J dt i p
          let pj := motionProfileLoop target A J dt j p
          |pj.acceleration| ≤ A ∧
            |pj.acceleration - pi.acceleration| ≤ J * (((j - i : ℕ) : ℝ) * h) ∧
            |pj.velocity - pi.velocity| ≤ A * (((j - i : ℕ) : ℝ) * h)) ∧
    ∀ (p : Option (MotionProfile ℝ)) (target accelLimit jerkLimit dt : ℝ),
      (motionProfileStepAt p target accelLimit jerkLimit dt).1 = false →
      (motionProfileStepAt p target accelLimit jerkLimit dt).2 = p := by
  refine ⟨?_, fun p target accelLimit jerkLimit dt => motionProfileStepAt_false⟩
  intro p target dt hp hdt hdt'
  have hstep : motionProfileStep p target A J dt = some _ :=
    motionProfileStep_eq_some hA hJ hdt hdt' hp
  have hramp := motionProfileStep_ramp hA hJ hdt hdt' hp hstep
  have hacc : ∀ i, |(motionProfileLoop target A J dt i p).acceleration| ≤ A :=
    motionProfileLoop_abs_acceleration hA.le hJ.le hdt hp
  refine ⟨_, ?_, hacc _, hramp.acceleration, hramp.velocity, rfl, rfl, ?_⟩
  · rw [motionProfileStepAt, hstep]
  · intro i j hij _
    obtain ⟨n, rfl⟩ := Nat.exists_eq_add_of_le hij
    have hloop : RampBound A J _ (motionProfileLoop target A J dt i p) _ :=
      motionProfileLoop_ramp hA.le hJ.le hdt hp i n
    rw [Nat.add_sub_cancel_left]
    exact ⟨hacc _, hloop.acceleration, hloop.velocity⟩

/-- One period of 20 ms from rest, under the limits of the linear profile. -/
theorem profile_step_bounds_start :
    ∃ q, motionProfileStepAt (some MotionProfile.zero) (0.38 : ℝ) 0.7 2 0.02 = (true, some q) ∧
      |q.acceleration| ≤ 0.7 := by
  obtain ⟨q, hstep, hacc, -⟩ := (profile_step_bounds (A := 0.7) (J := 2) (by norm_num)
    (by norm_num)).1 MotionProfile.zero 0.38 0.02 (by norm_num [MotionProfile.zero])
    (by norm_num) (by norm_num)
  exact ⟨q, hstep, hacc⟩
