/-
Jerk-limited velocity tracking (`motion_profile.c`).

`motionProfileStep` advances one axis toward a target velocity in substeps of at
most 5 ms.  `none` is the source's `false`: the profile is left as it was.

* `motionProfileSubstep_reserve` — one substep keeps the braking reserve of the
  acceleration below the distance to any bound on the target;
* `velocity_within_hull` — over every run, the velocity stays on its side of any
  bound on the start and on all targets, after every substep.
-/
import Base101.Double
import Base101.BrakingReserve

/-- `motion_profile_t`. -/
@[ext] structure MotionProfile (F : Type) where
  velocity : F
  acceleration : F
deriving DecidableEq

section Model

open Double

variable {F : Type} [Double F]

/-- `(motion_profile_t){0}`. -/
def MotionProfile.zero : MotionProfile F := ⟨0, 0⟩

def clamp (x limit : F) : F := fmax (-limit) (fmin limit x)

/-- The body of the loop: one integration step of length `h`. -/
def motionProfileSubstep (target accelLimit jerkLimit h : F) (p : MotionProfile F) :
    MotionProfile F :=
  let error := target - p.velocity
  -- the desired acceleration falls before the target is reached
  let desired := copysign (fmin accelLimit
    (fmin (6.0 * fabs error) (sqrt (jerkLimit * fabs error)))) error
  let oldAccel := p.acceleration
  let acceleration := oldAccel + clamp (desired - oldAccel) (jerkLimit * h)
  { velocity := p.velocity + (oldAccel + acceleration) * 0.5 * h
    acceleration := acceleration }

/-- `(unsigned)ceil(dt / 0.005)`. -/
def motionProfileSteps (dt : F) : ℕ := (toInt (ceil (dt / 0.005))).toNat

/-- The profile after `i` of the substeps of an accepted step. -/
def motionProfileLoop (target accelLimit jerkLimit dt : F) (i : ℕ) (p : MotionProfile F) :
    MotionProfile F :=
  (motionProfileSubstep target accelLimit jerkLimit (dt / (motionProfileSteps dt : F)))^[i] p

def motionProfileStep (p : MotionProfile F) (target accelLimit jerkLimit dt : F) :
    Option (MotionProfile F) :=
  -- the null pointer is the one test left out
  if !isfinite target || !isfinite accelLimit || accelLimit ≤ 0 ||
      !isfinite jerkLimit || jerkLimit ≤ 0 || !isfinite dt || dt ≤ 0 ||
      0.1 < dt || !isfinite p.velocity || !isfinite p.acceleration ||
      accelLimit + 1e-9 < fabs p.acceleration then none
  else some (motionProfileLoop target accelLimit jerkLimit dt (motionProfileSteps dt) p)

/-- Along the run with the given targets and time steps, every step succeeds and
`P` holds after each of its substeps. -/
def MotionProfile.RunKeeps (P : MotionProfile F → Prop) (accelLimit jerkLimit : F) :
    MotionProfile F → List (F × F) → Prop
  | _, [] => True
  | p, (target, dt) :: rest => ∃ q,
      motionProfileStep p target accelLimit jerkLimit dt = some q ∧
      (∀ i < motionProfileSteps dt,
        P (motionProfileLoop target accelLimit jerkLimit dt (i + 1) p)) ∧
      MotionProfile.RunKeeps P accelLimit jerkLimit q rest

end Model

/-! ### One substep -/

section Exact

open Double

variable {target accelLimit jerkLimit h bound : ℝ} {p : MotionProfile ℝ}

/-- The acceleration a substep aims for. -/
noncomputable def desiredAcceleration (accelLimit jerkLimit error : ℝ) : ℝ :=
  copysign (fmin accelLimit (fmin (6.0 * fabs error) (sqrt (jerkLimit * fabs error)))) error

theorem substep_acceleration (target accelLimit jerkLimit h : ℝ) (p : MotionProfile ℝ) :
    (motionProfileSubstep target accelLimit jerkLimit h p).acceleration =
      p.acceleration + max (-(jerkLimit * h)) (min (jerkLimit * h)
        (desiredAcceleration accelLimit jerkLimit (target - p.velocity) - p.acceleration)) := rfl

theorem substep_velocity (target accelLimit jerkLimit h : ℝ) (p : MotionProfile ℝ) :
    (motionProfileSubstep target accelLimit jerkLimit h p).velocity =
      p.velocity + (p.acceleration +
        (motionProfileSubstep target accelLimit jerkLimit h p).acceleration) / 2 * h := by
  have half : (0.5 : ℝ) = 1 / 2 := by norm_num
  simp only [motionProfileSubstep, half]
  ring

theorem desiredAcceleration_neg (accelLimit jerkLimit error : ℝ) (hA : 0 ≤ accelLimit) :
    desiredAcceleration accelLimit jerkLimit (-error) =
      -desiredAcceleration accelLimit jerkLimit error := by
  have hmag : 0 ≤ min accelLimit (min (6.0 * |error|) √(jerkLimit * |error|)) := by positivity
  unfold desiredAcceleration
  simp only [fabs_exact, fmin_exact, sqrt_real, abs_neg]
  rcases lt_trichotomy error 0 with he | he | he
  · rw [copysign_of_nonneg hmag (by linarith), copysign_of_neg hmag he, neg_neg]
  · -- without an error nothing is desired, whatever the sign of zero
    simp [he, copysign_of_nonneg, min_eq_right hA]
  · rw [copysign_of_neg hmag (by linarith), copysign_of_nonneg hmag he.le]

theorem abs_desiredAcceleration_le (hA : 0 ≤ accelLimit) (error : ℝ) :
    |desiredAcceleration accelLimit jerkLimit error| ≤ accelLimit := by
  have hmag : 0 ≤ min accelLimit (min (6.0 * |error|) √(jerkLimit * |error|)) := by positivity
  rw [desiredAcceleration]
  simp only [fabs_exact, fmin_exact, sqrt_real]
  rcases lt_or_ge error 0 with he | he
  · rw [copysign_of_neg hmag he, abs_neg, abs_of_nonneg hmag]
    exact min_le_left _ _
  · rw [copysign_of_nonneg hmag he, abs_of_nonneg hmag]
    exact min_le_left _ _

/-- Both approach laws, `6 * error` and `sqrt (jerk * error)`, for any bound on
the error. -/
theorem desiredAcceleration_bounds {error room : ℝ} (hA : 0 ≤ accelLimit)
    (hJ : 0 ≤ jerkLimit) (hroom : 0 ≤ room) (he : error ≤ room) :
    desiredAcceleration accelLimit jerkLimit error ≤ 6 * room ∧
      (0 ≤ desiredAcceleration accelLimit jerkLimit error →
        desiredAcceleration accelLimit jerkLimit error ^ 2 ≤ jerkLimit * room) := by
  have hmag : 0 ≤ min accelLimit (min (6.0 * |error|) √(jerkLimit * |error|)) := by positivity
  rw [desiredAcceleration]
  simp only [fabs_exact, fmin_exact, sqrt_real]
  rcases lt_or_ge error 0 with hneg | hpos
  · rw [copysign_of_neg hmag hneg]
    refine ⟨by linarith, ?_⟩
    intro h0
    -- a desired acceleration against the error that is not negative is zero
    have hzero : min accelLimit (min (6.0 * |error|) √(jerkLimit * |error|)) = 0 := by linarith
    rw [hzero]
    simpa using mul_nonneg hJ hroom
  · rw [copysign_of_nonneg hmag hpos, abs_of_nonneg hpos] at *
    have hlin : min accelLimit (min (6.0 * error) √(jerkLimit * error)) ≤ 6.0 * error :=
      (min_le_right _ _).trans (min_le_left _ _)
    have hroot : min accelLimit (min (6.0 * error) √(jerkLimit * error)) ≤ √(jerkLimit * error) :=
      (min_le_right _ _).trans (min_le_right _ _)
    have six : (6.0 : ℝ) = 6 := by norm_num
    refine ⟨by rw [six] at hlin ⊢; linarith, ?_⟩
    intro h0
    calc min accelLimit (min (6.0 * error) √(jerkLimit * error)) ^ 2
        ≤ √(jerkLimit * error) ^ 2 := pow_le_pow_left₀ h0 hroot 2
      _ = jerkLimit * error := Real.sq_sqrt (mul_nonneg hJ hpos)
      _ ≤ jerkLimit * room := mul_le_mul_of_nonneg_left he hJ

/-- The corner acceleration of the reserve: the linear law is `6`, and `7`
leaves room for the lag of one substep. -/
noncomputable def reserveCorner (jerkLimit : ℝ) : ℝ := jerkLimit / 7

/-- The velocity left below `bound` covers the reserve of the acceleration. -/
def WithinReserve (jerkLimit bound : ℝ) (p : MotionProfile ℝ) : Prop :=
  brakingReserve (reserveCorner jerkLimit) p.acceleration ≤
    2 * jerkLimit * (bound - p.velocity)

theorem WithinReserve.velocity_le (hJ : 0 < jerkLimit) (hp : WithinReserve jerkLimit bound p) :
    p.velocity ≤ bound := by
  have hr : 0 ≤ reserveCorner jerkLimit := by unfold reserveCorner; positivity
  have h0 : 0 ≤ 2 * jerkLimit * (bound - p.velocity) := (brakingReserve_nonneg hr).trans hp
  have hroom : 0 ≤ bound - p.velocity := nonneg_of_mul_nonneg_right h0 (by linarith)
  linarith

/-- The arithmetic of one substep: `room` is the distance to the bound, `d` the
desired acceleration and `a'` the one reached from `a`. -/
theorem brakingReserve_substep {J room a a' d : ℝ} (hJ : 0 < J) (hh : 0 < h) (hh' : h ≤ 1 / 200)
    (ha : brakingReserve (reserveCorner J) a ≤ 2 * J * room)
    (hlin : d ≤ 6 * room) (hroot : 0 ≤ d → d ^ 2 ≤ J * room)
    (ha' : a' = a + max (-(J * h)) (min (J * h) (d - a))) :
    brakingReserve (reserveCorner J) a' ≤ 2 * J * (room - (a + a') / 2 * h) := by
  have hr : 0 < reserveCorner J := by unfold reserveCorner; positivity
  have hJh : 0 < J * h := mul_pos hJ hh
  have hroom : 0 ≤ room := by
    have h0 : 0 ≤ 2 * J * room := (brakingReserve_nonneg hr.le).trans ha
    exact nonneg_of_mul_nonneg_right h0 (by linarith)
  have ha7 : a ≤ 7 * room := by
    have h0 : 2 * reserveCorner J * a ≤ 2 * J * room := (two_mul_le_brakingReserve hr.le).trans ha
    rw [reserveCorner] at h0
    nlinarith
  rcases le_or_gt a' 0 with hneg | hpos
  · -- no reserve is needed any more, and one substep cannot use up the room
    rw [brakingReserve_of_nonpos hneg]
    have hgain : (a + a') / 2 * h ≤ room := by nlinarith
    nlinarith
  · rcases lt_or_ge (d - a) (-(J * h)) with hbrake | htrack
    · -- braking at full jerk: the reserve pays for the substep
      have hsub : a' = a - J * h := by
        rw [ha', min_eq_right (by linarith), max_eq_left hbrake.le]
        ring
      have hfree := brakingReserve_sub (r := reserveCorner J) hJh.le (hsub ▸ hpos.le)
      rw [← hsub] at hfree
      nlinarith
    · -- tracking: `a'` is below the desired acceleration and at most one jerk step away
      have hclamp : -(J * h) ≤ min (J * h) (d - a) := le_min (by linarith) htrack
      have had : a' ≤ d := by
        rw [ha', max_eq_right hclamp]
        linarith [min_le_right (J * h) (d - a)]
      have haa : a ≤ a' + J * h := by
        rw [ha', max_eq_right hclamp]
        linarith
      rcases le_or_gt a' (reserveCorner J) with hlow | hhigh
      · -- on the line the law `6 * error` leaves a seventh of the room for the lag
        rw [brakingReserve_of_le hpos hlow]
        rw [reserveCorner]
        have hgain : a' / 7 + (a + a') / 2 * h ≤ room := by nlinarith
        nlinarith
      · rw [brakingReserve_of_lt hpos hhigh]
        rw [reserveCorner] at hhigh ⊢
        have hsq : a' ^ 2 ≤ J * room := by
          have hd0 : 0 ≤ d := hpos.le.trans had
          nlinarith [hroot hd0]
        have hgain : (a + a') / 2 * h ≤ a' * h + J * h ^ 2 / 2 := by nlinarith
        have hlag : a' * h ≤ a' / 200 := by nlinarith
        have hlag' : J * h ^ 2 ≤ J / 40000 := by nlinarith
        rcases le_or_gt a' (J / 6) with hsix | hsix
        · -- between the corner and the switch the linear law is the tighter one
          have hquad : (a' - J / 7) * (a' - J / 6) ≤ 0 :=
            mul_nonpos_of_nonneg_of_nonpos (by linarith) (by linarith)
          nlinarith
        · nlinarith

/-- **One substep keeps the reserve**, whatever target below `bound` it has. -/
theorem motionProfileSubstep_reserve (hA : 0 < accelLimit) (hJ : 0 < jerkLimit) (hh : 0 < h)
    (hh' : h ≤ 1 / 200) (htarget : target ≤ bound) (hp : WithinReserve jerkLimit bound p) :
    WithinReserve jerkLimit bound (motionProfileSubstep target accelLimit jerkLimit h p) := by
  have hroom : 0 ≤ bound - p.velocity := by linarith [hp.velocity_le hJ]
  obtain ⟨hlin, hroot⟩ := desiredAcceleration_bounds hA.le hJ.le hroom
    (show target - p.velocity ≤ bound - p.velocity by linarith)
  have hstep := brakingReserve_substep hJ hh hh' hp hlin hroot
    (substep_acceleration target accelLimit jerkLimit h p)
  rw [WithinReserve]
  rw [substep_velocity, ← sub_sub]
  exact hstep

/-- The acceleration stays within its limit. -/
theorem motionProfileSubstep_abs_acceleration (hA : 0 ≤ accelLimit) (hJh : 0 ≤ jerkLimit * h)
    (hp : |p.acceleration| ≤ accelLimit) :
    |(motionProfileSubstep target accelLimit jerkLimit h p).acceleration| ≤ accelLimit := by
  rw [substep_acceleration]
  set d := desiredAcceleration accelLimit jerkLimit (target - p.velocity) with hd
  have hbound : |desiredAcceleration accelLimit jerkLimit (target - p.velocity)| ≤ accelLimit :=
    abs_desiredAcceleration_le hA _
  obtain ⟨hd1, hd2⟩ := abs_le.mp hbound
  obtain ⟨hp1, hp2⟩ := abs_le.mp hp
  rw [← hd] at hd1 hd2
  rw [abs_le]
  constructor
  · rcases le_total (d - p.acceleration) (jerkLimit * h) with hle | hle
    · rw [min_eq_right hle]
      linarith [le_max_right (-(jerkLimit * h)) (d - p.acceleration)]
    · rw [min_eq_left hle]
      linarith [le_max_right (-(jerkLimit * h)) (jerkLimit * h)]
  · rcases le_total (-(jerkLimit * h)) (d - p.acceleration) with hle | hle
    · rw [max_eq_right (le_min (by linarith) hle)]
      linarith [min_le_right (jerkLimit * h) (d - p.acceleration)]
    · rw [min_eq_right (by linarith), max_eq_left hle]
      linarith

/-! ### Whole steps and runs -/

theorem motionProfileSteps_bounds {dt : ℝ} (hdt : 0 < dt) :
    0 < dt / (motionProfileSteps dt : ℝ) ∧ dt / (motionProfileSteps dt : ℝ) ≤ 1 / 200 := by
  have hlit : (0.005 : ℝ) = 1 / 200 := by norm_num
  have hsteps : (motionProfileSteps dt : ℤ) = ⌈dt / 0.005⌉ := by
    have hceil : 0 ≤ ⌈dt / (0.005 : ℝ)⌉ := Int.ceil_nonneg (by positivity)
    simp [motionProfileSteps, hceil]
  have hle : dt / 0.005 ≤ (motionProfileSteps dt : ℝ) := by
    have hceil := Int.le_ceil (dt / (0.005 : ℝ))
    rw [← hsteps] at hceil
    exact_mod_cast hceil
  rw [hlit] at hle
  have hpos : (0 : ℝ) < motionProfileSteps dt := lt_of_lt_of_le (by positivity) hle
  refine ⟨by positivity, ?_⟩
  rw [div_le_iff₀ hpos]
  linarith

/-- A short step is one substep. -/
theorem motionProfileSteps_short {dt : ℝ} (hdt : 0 < dt) (hdt' : dt ≤ 1 / 200) :
    motionProfileSteps dt = 1 := by
  have hceil : ⌈dt / (0.005 : ℝ)⌉ = 1 := by
    rw [Int.ceil_eq_iff]
    constructor
    · norm_num
      exact hdt
    · norm_num
      linarith
  rw [motionProfileSteps, ceil_exact, hceil, toInt_intCast]
  rfl

theorem motionProfileLoop_succ {dt : ℝ} (i : ℕ) :
    motionProfileLoop target accelLimit jerkLimit dt (i + 1) p =
      motionProfileSubstep target accelLimit jerkLimit (dt / (motionProfileSteps dt : ℝ))
        (motionProfileLoop target accelLimit jerkLimit dt i p) :=
  Function.iterate_succ_apply' _ _ _

theorem motionProfileStep_eq_some {dt : ℝ} (hA : 0 < accelLimit) (hJ : 0 < jerkLimit)
    (hdt : 0 < dt) (hdt' : dt ≤ 0.1) (hp : |p.acceleration| ≤ accelLimit) :
    motionProfileStep p target accelLimit jerkLimit dt =
      some (motionProfileLoop target accelLimit jerkLimit dt (motionProfileSteps dt) p) := by
  have htol : ¬ accelLimit + 1e-9 < |p.acceleration| := by norm_num; linarith
  simp [motionProfileStep, hA, hJ, hdt, hdt', htol]

/-- An invariant of the substeps is an invariant of the runs. -/
theorem MotionProfile.RunKeeps.of_invariant {I P : MotionProfile ℝ → Prop}
    {cmds : List (ℝ × ℝ)} (hA : 0 < accelLimit) (hJ : 0 < jerkLimit)
    (hdt : ∀ c ∈ cmds, 0 < c.2 ∧ c.2 ≤ 0.1)
    (hacc : ∀ q, I q → |q.acceleration| ≤ accelLimit) (hP : ∀ q, I q → P q)
    (hstep : ∀ c ∈ cmds, ∀ h q, 0 < h → h ≤ 1 / 200 → I q →
      I (motionProfileSubstep c.1 accelLimit jerkLimit h q)) (hp : I p) :
    MotionProfile.RunKeeps P accelLimit jerkLimit p cmds := by
  induction cmds generalizing p with
  | nil => trivial
  | cons c rest ih =>
    obtain ⟨target, dt⟩ := c
    obtain ⟨hpos, hle⟩ := hdt (target, dt) List.mem_cons_self
    obtain ⟨hh, hh'⟩ := motionProfileSteps_bounds hpos
    -- inside a step the target and the length of the substeps are fixed
    have hloop : ∀ i, I (motionProfileLoop target accelLimit jerkLimit dt i p) := by
      intro i
      induction i with
      | zero => exact hp
      | succ i ihi =>
        rw [motionProfileLoop_succ]
        exact hstep (target, dt) List.mem_cons_self _ _ hh hh' ihi
    refine ⟨_, motionProfileStep_eq_some hA hJ hpos hle (hacc p hp), ?_, ?_⟩
    · intro i _
      exact hP _ (hloop (i + 1))
    · refine ih ?_ ?_ (hloop _)
      · intro c hc
        exact hdt c (List.mem_cons_of_mem _ hc)
      · intro c hc
        exact hstep c (List.mem_cons_of_mem _ hc)

/-- The mirror image of a profile. -/
def MotionProfile.mirror (p : MotionProfile ℝ) : MotionProfile ℝ :=
  ⟨-p.velocity, -p.acceleration⟩

theorem motionProfileSubstep_mirror (hA : 0 ≤ accelLimit) (hJh : 0 ≤ jerkLimit * h) :
    motionProfileSubstep (-target) accelLimit jerkLimit h p.mirror =
      (motionProfileSubstep target accelLimit jerkLimit h p).mirror := by
  have hacc : (motionProfileSubstep (-target) accelLimit jerkLimit h p.mirror).acceleration =
      -(motionProfileSubstep target accelLimit jerkLimit h p).acceleration := by
    have herr : -target - p.mirror.velocity = -(target - p.velocity) := by
      simp only [MotionProfile.mirror]; ring
    rw [substep_acceleration, substep_acceleration, herr, desiredAcceleration_neg _ _ _ hA]
    set d := desiredAcceleration accelLimit jerkLimit (target - p.velocity)
    simp only [MotionProfile.mirror]
    -- the clamp is odd
    have hodd : max (-(jerkLimit * h)) (min (jerkLimit * h) (-d - -p.acceleration)) =
        -max (-(jerkLimit * h)) (min (jerkLimit * h) (d - p.acceleration)) := by
      rw [← min_neg_neg, ← max_neg_neg, neg_neg, max_min_distrib_left]
      rw [max_eq_right (by linarith : -(jerkLimit * h) ≤ jerkLimit * h)]
      congr 2
      ring
    rw [hodd]
    ring
  have hvel : (motionProfileSubstep (-target) accelLimit jerkLimit h p.mirror).velocity =
      -(motionProfileSubstep target accelLimit jerkLimit h p).velocity := by
    rw [substep_velocity, hacc, substep_velocity]
    simp only [MotionProfile.mirror]
    ring
  exact MotionProfile.ext hvel hacc

theorem le_foldr_max (v : ℝ) (l : List ℝ) :
    v ≤ l.foldr max v ∧ ∀ x ∈ l, x ≤ l.foldr max v := by
  induction l with
  | nil => simp
  | cons y l ih =>
    obtain ⟨hv, hl⟩ := ih
    refine ⟨hv.trans (le_max_right _ _), ?_⟩
    intro x hx
    rcases List.mem_cons.mp hx with rfl | hx
    · exact le_max_left _ _
    · exact (hl x hx).trans (le_max_right _ _)

/-- A profile within its acceleration limit whose reserve holds below `bound`. -/
def BelowBound (accelLimit jerkLimit bound : ℝ) (p : MotionProfile ℝ) : Prop :=
  |p.acceleration| ≤ accelLimit ∧ WithinReserve jerkLimit bound p

theorem belowBound_of_nonpos (hJ : 0 < jerkLimit) (hv : p.velocity ≤ bound)
    (ha : p.acceleration ≤ 0) (hacc : |p.acceleration| ≤ accelLimit) :
    BelowBound accelLimit jerkLimit bound p := by
  refine ⟨hacc, ?_⟩
  rw [WithinReserve, brakingReserve_of_nonpos ha]
  have hroom : 0 ≤ bound - p.velocity := by linarith
  positivity

theorem belowBound_substep (hA : 0 < accelLimit) (hJ : 0 < jerkLimit) (hh : 0 < h)
    (hh' : h ≤ 1 / 200) (htarget : target ≤ bound) (hp : BelowBound accelLimit jerkLimit bound p) :
    BelowBound accelLimit jerkLimit bound
      (motionProfileSubstep target accelLimit jerkLimit h p) :=
  ⟨motionProfileSubstep_abs_acceleration hA.le (mul_pos hJ hh).le hp.1,
    motionProfileSubstep_reserve hA hJ hh hh' htarget hp.2⟩

theorem runKeeps_velocity_le (hA : 0 < accelLimit) (hJ : 0 < jerkLimit) {cmds : List (ℝ × ℝ)}
    (hcmds : ∀ c ∈ cmds, c.1 ≤ bound ∧ 0 < c.2 ∧ c.2 ≤ 0.1)
    (hp : BelowBound accelLimit jerkLimit bound p) :
    MotionProfile.RunKeeps (fun q => q.velocity ≤ bound) accelLimit jerkLimit p cmds :=
  .of_invariant hA hJ (fun c hc => (hcmds c hc).2) (fun _ hq => hq.1)
    (fun _ hq => hq.2.velocity_le hJ)
    (fun c hc _ _ hh hh' hq => belowBound_substep hA hJ hh hh' (hcmds c hc).1 hq) hp

theorem runKeeps_le_velocity (hA : 0 < accelLimit) (hJ : 0 < jerkLimit) {cmds : List (ℝ × ℝ)}
    (hcmds : ∀ c ∈ cmds, bound ≤ c.1 ∧ 0 < c.2 ∧ c.2 ≤ 0.1)
    (hp : BelowBound accelLimit jerkLimit (-bound) p.mirror) :
    MotionProfile.RunKeeps (fun q => bound ≤ q.velocity) accelLimit jerkLimit p cmds := by
  refine .of_invariant (I := fun q => BelowBound accelLimit jerkLimit (-bound) q.mirror)
    hA hJ (fun c hc => (hcmds c hc).2) ?_ ?_ ?_ hp
  · intro q hq
    simpa [MotionProfile.mirror] using hq.1
  · intro q hq
    have hv := hq.2.velocity_le hJ
    simp only [MotionProfile.mirror] at hv
    linarith
  · intro c hc h q hh hh' hq
    rw [← motionProfileSubstep_mirror hA.le (mul_pos hJ hh).le]
    exact belowBound_substep hA hJ hh hh' (by linarith [(hcmds c hc).1]) hq

/-- **The velocity stays in the hull of its targets.**  Every step of a run
succeeds, and after each substep the velocity is on its side of any bound that
holds of the start and of every target, from above and from below.  So a
profile at rest never overshoots a constant target, nor the largest target of a
run in which the targets drop or reverse. -/
theorem velocity_within_hull (hA : 0 < accelLimit) (hJ : 0 < jerkLimit) :
    (∀ bound (p : MotionProfile ℝ) (cmds : List (ℝ × ℝ)),
      p.velocity ≤ bound → p.acceleration ≤ 0 → |p.acceleration| ≤ accelLimit →
      (∀ c ∈ cmds, c.1 ≤ bound ∧ 0 < c.2 ∧ c.2 ≤ 0.1) →
      MotionProfile.RunKeeps (fun q => q.velocity ≤ bound) accelLimit jerkLimit p cmds) ∧
    (∀ bound (p : MotionProfile ℝ) (cmds : List (ℝ × ℝ)),
      bound ≤ p.velocity → 0 ≤ p.acceleration → |p.acceleration| ≤ accelLimit →
      (∀ c ∈ cmds, bound ≤ c.1 ∧ 0 < c.2 ∧ c.2 ≤ 0.1) →
      MotionProfile.RunKeeps (fun q => bound ≤ q.velocity) accelLimit jerkLimit p cmds) ∧
    (∀ (target : ℝ) (dts : List ℝ), (∀ dt ∈ dts, 0 < dt ∧ dt ≤ 0.1) →
      MotionProfile.RunKeeps (fun q => q.velocity ≤ max 0 target) accelLimit jerkLimit
        MotionProfile.zero (dts.map fun dt => (target, dt)) ∧
      MotionProfile.RunKeeps (fun q => min 0 target ≤ q.velocity) accelLimit jerkLimit
        MotionProfile.zero (dts.map fun dt => (target, dt))) ∧
    (∀ cmds : List (ℝ × ℝ), (∀ c ∈ cmds, 0 < c.2 ∧ c.2 ≤ 0.1) →
      MotionProfile.RunKeeps (fun q => q.velocity ≤ (cmds.map Prod.fst).foldr max 0)
        accelLimit jerkLimit MotionProfile.zero cmds) := by
  have above : ∀ bound (p : MotionProfile ℝ) (cmds : List (ℝ × ℝ)),
      p.velocity ≤ bound → p.acceleration ≤ 0 → |p.acceleration| ≤ accelLimit →
      (∀ c ∈ cmds, c.1 ≤ bound ∧ 0 < c.2 ∧ c.2 ≤ 0.1) →
      MotionProfile.RunKeeps (fun q => q.velocity ≤ bound) accelLimit jerkLimit p cmds := by
    intro bound p cmds hv ha hacc hcmds
    exact runKeeps_velocity_le hA hJ hcmds (belowBound_of_nonpos hJ hv ha hacc)
  have below : ∀ bound (p : MotionProfile ℝ) (cmds : List (ℝ × ℝ)),
      bound ≤ p.velocity → 0 ≤ p.acceleration → |p.acceleration| ≤ accelLimit →
      (∀ c ∈ cmds, bound ≤ c.1 ∧ 0 < c.2 ∧ c.2 ≤ 0.1) →
      MotionProfile.RunKeeps (fun q => bound ≤ q.velocity) accelLimit jerkLimit p cmds := by
    intro bound p cmds hv ha hacc hcmds
    refine runKeeps_le_velocity hA hJ hcmds (belowBound_of_nonpos hJ ?_ ?_ ?_)
    · simpa [MotionProfile.mirror] using hv
    · simpa [MotionProfile.mirror] using ha
    · simpa [MotionProfile.mirror] using hacc
  have rest : |(MotionProfile.zero : MotionProfile ℝ).acceleration| ≤ accelLimit := by
    simpa [MotionProfile.zero] using hA.le
  refine ⟨above, below, ?_, ?_⟩
  · intro target dts hdts
    constructor
    · refine above _ _ _ (le_max_left _ _) (le_refl 0) rest ?_
      intro c hc
      obtain ⟨dt, hdt, rfl⟩ := List.mem_map.mp hc
      exact ⟨le_max_right _ _, hdts dt hdt⟩
    · refine below _ _ _ (min_le_left _ _) (le_refl 0) rest ?_
      intro c hc
      obtain ⟨dt, hdt, rfl⟩ := List.mem_map.mp hc
      exact ⟨min_le_right _ _, hdts dt hdt⟩
  · intro cmds hcmds
    obtain ⟨hstart, htargets⟩ := le_foldr_max (0 : ℝ) (cmds.map Prod.fst)
    refine above _ _ _ hstart (le_refl 0) rest ?_
    intro c hc
    exact ⟨htargets c.1 (List.mem_map_of_mem hc), hcmds c hc⟩

/-- The shipped linear limits, stepped up to 0.4 m/s and then reversed. -/
theorem velocity_within_hull_shipped :
    MotionProfile.RunKeeps (fun q => q.velocity ≤ 0.4) (0.7 : ℝ) 1.6 MotionProfile.zero
      [(0.4, 0.02), (-0.4, 0.1)] := by
  refine (velocity_within_hull (by norm_num) (by norm_num)).1 0.4 MotionProfile.zero _
    (by norm_num [MotionProfile.zero]) (le_refl 0) (by norm_num [MotionProfile.zero]) ?_
  norm_num

end Exact
