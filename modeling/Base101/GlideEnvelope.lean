/-
The envelope of the body-velocity controller (`glide.c`), over the reals.

The three profiles of a controller keep the reserve they need on both sides of
their caps, and the integrator stays within the cap of the correction.  Every
update and every reset keeps that, so no update with an accepted time step is
ever refused by one of the nested profile steps.

* `glideUpdate_within` — one update, in both branches;
* `glideWithin_run` — every run of updates and resets;
* `glide_envelope` — what is true of every state and of the wheel rates.
-/
import Base101.Glide
import Base101.Machine

open Double

/-! ### A profile between two bounds -/

section Profile

variable {target accelLimit jerkLimit bound h dt : ℝ} {p : MotionProfile ℝ}

/-- The reserve holds below `bound` and, mirrored, above `-bound`. -/
structure WithinBounds (accelLimit jerkLimit bound : ℝ) (p : MotionProfile ℝ) : Prop where
  below : BelowBound accelLimit jerkLimit bound p
  above : BelowBound accelLimit jerkLimit bound p.mirror

theorem WithinBounds.abs_velocity_le (hJ : 0 < jerkLimit)
    (hp : WithinBounds accelLimit jerkLimit bound p) : |p.velocity| ≤ bound := by
  have hup := hp.below.2.velocity_le hJ
  have hdown := hp.above.2.velocity_le hJ
  simp only [MotionProfile.mirror] at hdown
  exact abs_le.mpr ⟨by linarith, hup⟩

theorem withinBounds_zero (hA : 0 ≤ accelLimit) (hJ : 0 < jerkLimit) (hb : 0 ≤ bound) :
    WithinBounds accelLimit jerkLimit bound MotionProfile.zero := by
  constructor
  · refine belowBound_of_nonpos hJ ?_ ?_ ?_
    · exact hb
    · exact le_refl 0
    · simpa [MotionProfile.zero] using hA
  · refine belowBound_of_nonpos hJ ?_ ?_ ?_
    · simpa [MotionProfile.zero, MotionProfile.mirror] using hb
    · simp [MotionProfile.zero, MotionProfile.mirror]
    · simpa [MotionProfile.zero, MotionProfile.mirror] using hA

theorem withinBounds_substep (hA : 0 < accelLimit) (hJ : 0 < jerkLimit) (hh : 0 < h)
    (hh' : h ≤ 1 / 200) (htarget : |target| ≤ bound)
    (hp : WithinBounds accelLimit jerkLimit bound p) :
    WithinBounds accelLimit jerkLimit bound
      (motionProfileSubstep target accelLimit jerkLimit h p) := by
  obtain ⟨hlow, hhigh⟩ := abs_le.mp htarget
  constructor
  · exact belowBound_substep hA hJ hh hh' hhigh hp.below
  · rw [← motionProfileSubstep_mirror hA.le (mul_pos hJ hh).le]
    exact belowBound_substep hA hJ hh hh' (by linarith) hp.above

/-- Between its bounds a profile takes every step with an accepted time, and stays there. -/
theorem withinBounds_step (target : ℝ) (hA : 0 < accelLimit) (hJ : 0 < jerkLimit) (hdt : 0 < dt)
    (hdt' : dt ≤ 0.1) (htarget : |target| ≤ bound)
    (hp : WithinBounds accelLimit jerkLimit bound p) :
    ∃ q, motionProfileStep p target accelLimit jerkLimit dt = some q ∧
      WithinBounds accelLimit jerkLimit bound q := by
  obtain ⟨hh, hh'⟩ := motionProfileSteps_bounds hdt
  refine ⟨_, motionProfileStep_eq_some hA hJ hdt hdt' hp.below.1, ?_⟩
  -- on the substeps, which share one target and one length
  induction motionProfileSteps dt with
  | zero => exact hp
  | succ i ih =>
    rw [motionProfileLoop] at ih ⊢
    rw [Function.iterate_succ_apply']
    exact withinBounds_substep hA hJ hh hh' htarget ih

end Profile

/-! ### The clamp -/

theorem abs_clamp_le {x limit : ℝ} (h : 0 ≤ limit) : |clamp x limit| ≤ limit := by
  rw [clamp, fmax_exact, fmin_exact, abs_le]
  constructor
  · exact le_max_left _ _
  · exact max_le (by linarith) (min_le_left _ _)

/-- The clamp changes nothing within its limit. -/
theorem clamp_of_abs_le {x limit : ℝ} (h : |x| ≤ limit) : clamp x limit = x := by
  obtain ⟨hlow, hhigh⟩ := abs_le.mp h
  rw [clamp, fmax_exact, fmin_exact, min_eq_right hhigh, max_eq_right hlow]

/-! ### Accepted configurations -/

/-- The signs `glideInit` checks. -/
structure GlideConfig.Accepted (cfg : GlideConfig ℝ) : Prop where
  positive : ∀ x ∈ cfg.positive, 0 < x
  nonnegative : ∀ x ∈ cfg.nonnegative, 0 ≤ x

theorem glideInit_eq_some_iff {cfg : GlideConfig ℝ} {g : Glide ℝ} :
    glideInit cfg = some g ↔ cfg.Accepted ∧ g = glideAtRest cfg := by
  constructor
  · intro h
    have hg := glideInit_eq_some h
    rw [glideInit] at h
    split_ifs at h with hpos hneg
    refine ⟨⟨?_, ?_⟩, hg⟩
    · simpa using hpos
    · simpa using hneg
  · rintro ⟨hcfg, rfl⟩
    exact glideInit_exact hcfg.positive hcfg.nonnegative

namespace GlideConfig.Accepted

variable {cfg : GlideConfig ℝ} (h : cfg.Accepted)

include h

theorem radius : 0 < cfg.radius := h.positive _ (by simp [GlideConfig.positive])
theorem separation : 0 < cfg.separation := h.positive _ (by simp [GlideConfig.positive])
theorem icr : 0 < cfg.icr := h.positive _ (by simp [GlideConfig.positive])
theorem wheelMax : 0 < cfg.wheelMax := h.positive _ (by simp [GlideConfig.positive])
theorem vxMax : 0 < cfg.vxMax := h.positive _ (by simp [GlideConfig.positive])
theorem wzMax : 0 < cfg.wzMax := h.positive _ (by simp [GlideConfig.positive])
theorem axMax : 0 < cfg.axMax := h.positive _ (by simp [GlideConfig.positive])
theorem alphaMax : 0 < cfg.alphaMax := h.positive _ (by simp [GlideConfig.positive])
theorem jxMax : 0 < cfg.jxMax := h.positive _ (by simp [GlideConfig.positive])
theorem jalphaMax : 0 < cfg.jalphaMax := h.positive _ (by simp [GlideConfig.positive])
theorem correctionAccel : 0 < cfg.correctionAccel :=
  h.positive _ (by simp [GlideConfig.positive])
theorem correctionJerk : 0 < cfg.correctionJerk :=
  h.positive _ (by simp [GlideConfig.positive])
theorem correctionMax : 0 ≤ cfg.correctionMax :=
  h.nonnegative _ (by simp [GlideConfig.nonnegative])

end GlideConfig.Accepted

/-- `config` of `glide_test.c`. -/
noncomputable def glideTestConfig : GlideConfig ℝ :=
  { radius := 0.0363, separation := 0.2899, icr := 1.5, wheelMax := 20.94
    vxMax := 0.75, wzMax := 2, axMax := 0.7, alphaMax := 3, jxMax := 2, jalphaMax := 10
    yawKp := 0.5, yawKi := 0.3, correctionMax := 0.5, deadband := 0.005
    correctionAccel := 0.25, correctionJerk := 1, yawFeedback := true }

theorem glideTestConfig_accepted : glideTestConfig.Accepted := by
  constructor
  · norm_num [glideTestConfig, GlideConfig.positive]
  · norm_num [glideTestConfig, GlideConfig.nonnegative]

/-- The thresholds of the coast. -/
def Settles (p q : MotionProfile ℝ) : Prop :=
  |p.velocity| < 1e-4 ∧ |q.velocity| < 1e-4 ∧ |p.acceleration| < 1e-3 ∧ |q.acceleration| < 1e-3

theorem glideCoasts_iff (g : Glide ℝ) (vx wz : ℝ) :
    glideCoasts g vx wz = true ↔ vx = 0 ∧ wz = 0 ∧ Settles g.linear g.yaw := by
  simp [glideCoasts, Settles, and_assoc]

/-! ### The invariant of a controller -/

/-- Every profile is between its bounds, and the integrator within the cap. -/
structure GlideWithin (g : Glide ℝ) : Prop where
  accepted : g.cfg.Accepted
  linear : WithinBounds g.cfg.axMax g.cfg.jxMax g.cfg.vxMax g.linear
  yaw : WithinBounds g.cfg.alphaMax g.cfg.jalphaMax g.cfg.wzMax g.yaw
  correctionProfile : WithinBounds g.cfg.correctionAccel g.cfg.correctionJerk
    g.cfg.correctionMax g.correctionProfile
  integrator : |g.integrator| ≤ g.cfg.correctionMax

theorem glideWithin_atRest {cfg : GlideConfig ℝ} (h : cfg.Accepted) :
    GlideWithin (glideAtRest cfg) where
  accepted := h
  linear := withinBounds_zero h.axMax.le h.jxMax h.vxMax.le
  yaw := withinBounds_zero h.alphaMax.le h.jalphaMax h.wzMax.le
  correctionProfile := withinBounds_zero h.correctionAccel.le h.correctionJerk h.correctionMax
  integrator := by simpa [glideAtRest] using h.correctionMax

section Update

variable {g : Glide ℝ} {vx wz gyroZ dt : ℝ} {trackingGood coast : Bool}

theorem glideShape_within (vx wz : ℝ) (trackingGood : Bool) (hg : GlideWithin g) (hdt : 0 < dt)
    (hdt' : dt ≤ 0.1) :
    ∃ g', glideShape g vx wz trackingGood dt = some g' ∧ GlideWithin g' := by
  have hcfg := hg.accepted
  obtain ⟨linear, hlinear, hlinear'⟩ := withinBounds_step (clamp vx g.cfg.vxMax)
    hcfg.axMax hcfg.jxMax hdt hdt' (abs_clamp_le hcfg.vxMax.le) hg.linear
  obtain ⟨yaw, hyaw, hyaw'⟩ := withinBounds_step (clamp wz g.cfg.wzMax)
    hcfg.alphaMax hcfg.jalphaMax hdt hdt' (abs_clamp_le hcfg.wzMax.le) hg.yaw
  refine ⟨{ g with linear, yaw, trackingBadS := if trackingGood then 0 else g.trackingBadS + dt },
    ?_, ?_⟩
  · rw [glideShape, hlinear, hyaw]
    rfl
  · exact ⟨hcfg, hlinear', hyaw', hg.correctionProfile, hg.integrator⟩

/-- The controller the open loop finishes: the correction is what is left of `profile`. -/
noncomputable def glideFaded (g : Glide ℝ) (coast : Bool) (profile : MotionProfile ℝ) : Glide ℝ :=
  { g with
    linear := if coast then .zero else g.linear
    yaw := if coast then .zero else g.yaw
    correctionProfile := if fabs profile.velocity < 1e-4 && fabs profile.acceleration < 1e-3 then
      MotionProfile.zero else profile
    integrator := 0 }

theorem glideOpenLoop_eq (g : Glide ℝ) (coast : Bool) (dt : ℝ) :
    glideOpenLoop g coast dt =
      (motionProfileStep g.correctionProfile 0 g.cfg.correctionAccel g.cfg.correctionJerk dt).bind
        fun profile => some (glideFinish (glideFaded g coast profile)) := by
  cases coast
  · rfl
  · rfl

theorem glideOpenLoop_within (hg : GlideWithin g) (hdt : 0 < dt) (hdt' : dt ≤ 0.1) :
    ∃ g', glideOpenLoop g coast dt = some (glideFinish g') ∧ GlideWithin g' := by
  have hcfg := hg.accepted
  have hzero := glideWithin_atRest hcfg
  obtain ⟨profile, hprofile, hprofile'⟩ := withinBounds_step 0
    hcfg.correctionAccel hcfg.correctionJerk hdt hdt' (by simpa using hcfg.correctionMax)
    hg.correctionProfile
  refine ⟨glideFaded g coast profile, ?_, ?_⟩
  · rw [glideOpenLoop_eq, hprofile]
    rfl
  · refine ⟨hcfg, ?_, ?_, ?_, ?_⟩
    · show WithinBounds _ _ _ (if coast then MotionProfile.zero else g.linear)
      split
      · exact hzero.linear
      · exact hg.linear
    · show WithinBounds _ _ _ (if coast then MotionProfile.zero else g.yaw)
      split
      · exact hzero.yaw
      · exact hg.yaw
    · show WithinBounds _ _ _ (ite _ MotionProfile.zero profile)
      split
      · exact hzero.correctionProfile
      · exact hprofile'
    · exact hzero.integrator

/-- The closed loop steps the correction toward a clamped value, and the new
integrator is a clamped value or the old one. -/
theorem glideClosedLoop_eq (g : Glide ℝ) (gyroZ dt : ℝ) :
    ∃ raw integrator : ℝ,
      ((∃ candidate, integrator = clamp candidate g.cfg.correctionMax) ∨
        integrator = g.integrator) ∧
      glideClosedLoop g gyroZ dt =
        (motionProfileStep g.correctionProfile (clamp raw g.cfg.correctionMax)
          g.cfg.correctionAccel g.cfg.correctionJerk dt).bind fun profile =>
            some (glideFinish { g with integrator, correctionProfile := profile }) := by
  refine ⟨_, _, ?_, rfl⟩
  exact (ite_eq_or_eq _ _ _).imp_left fun h => ⟨_, h⟩

theorem glideClosedLoop_within (hg : GlideWithin g) (hdt : 0 < dt) (hdt' : dt ≤ 0.1) :
    ∃ g', glideClosedLoop g gyroZ dt = some (glideFinish g') ∧ GlideWithin g' := by
  have hcfg := hg.accepted
  obtain ⟨raw, integrator, hcases, heq⟩ := glideClosedLoop_eq g gyroZ dt
  obtain ⟨profile, hprofile, hprofile'⟩ := withinBounds_step
    (clamp raw g.cfg.correctionMax) hcfg.correctionAccel hcfg.correctionJerk hdt hdt'
    (abs_clamp_le hcfg.correctionMax) hg.correctionProfile
  have hintegrator : |integrator| ≤ g.cfg.correctionMax := by
    rcases hcases with ⟨candidate, rfl⟩ | rfl
    · exact abs_clamp_le hcfg.correctionMax
    · exact hg.integrator
  refine ⟨{ g with integrator, correctionProfile := profile }, ?_, ?_⟩
  · rw [heq, hprofile]
    rfl
  · exact ⟨hcfg, hg.linear, hg.yaw, hprofile', hintegrator⟩

/-- An update with an accepted time step: the shaping, and then one of the two loops. -/
theorem glideUpdate_eq (g : Glide ℝ) (vx wz gyroZ : ℝ) (trackingGood : Bool) (hdt : 0 < dt)
    (hdt' : dt ≤ 0.1) :
    glideUpdate g vx wz gyroZ trackingGood dt =
      (glideShape g vx wz trackingGood dt).bind fun shaped =>
        if glideCoasts shaped vx wz || !shaped.cfg.yawFeedback then
          glideOpenLoop shaped (glideCoasts shaped vx wz) dt
        else glideClosedLoop shaped gyroZ dt := by
  have hguard : ¬ (!isfinite vx || !isfinite wz || !isfinite gyroZ || !isfinite dt ||
      dt ≤ 0 || 0.1 < dt) = true := by
    simp [hdt, hdt']
  rw [glideUpdate, if_neg hguard]
  rfl

/-- **No update with an accepted time step is refused**, and none leaves the bounds. -/
theorem glideUpdate_within (vx wz gyroZ : ℝ) (trackingGood : Bool) (hg : GlideWithin g)
    (hdt : 0 < dt) (hdt' : dt ≤ 0.1) :
    ∃ g', glideUpdate g vx wz gyroZ trackingGood dt = some (glideFinish g') ∧
      GlideWithin g' := by
  obtain ⟨shaped, hshape, hshaped⟩ := glideShape_within vx wz trackingGood hg hdt hdt'
  rw [glideUpdate_eq g vx wz gyroZ trackingGood hdt hdt', hshape, Option.bind_some]
  split
  · exact glideOpenLoop_within hshaped hdt hdt'
  · exact glideClosedLoop_within hshaped hdt hdt'

/-- A time step out of range is refused in every state. -/
theorem glideUpdate_eq_none (h : ¬ (0 < dt ∧ dt ≤ 0.1)) :
    glideUpdate g vx wz gyroZ trackingGood dt = none := by
  rw [glideUpdate, if_pos]
  rw [not_and_or, not_lt, not_le] at h
  simpa using h

end Update

/-! ### The wheel rates -/

/-- `left` and `right` of `allocate` before the common scale. -/
def glideWheelRates {F : Type} [Double F] (g : Glide F) (correction : F) : F × F :=
  let turn := (g.yaw.velocity + correction) * g.cfg.icr * g.cfg.separation * 0.5
  ((g.linear.velocity - turn) / g.cfg.radius, (g.linear.velocity + turn) / g.cfg.radius)

/-- The allocation is the unsaturated one times a common scale in `(0, 1]`, and
below one exactly when it saturates. -/
theorem glideAllocate_scaled {g : Glide ℝ} (hcap : 0 < g.cfg.wheelMax) (correction : ℝ) :
    ∃ scale, 0 < scale ∧ scale ≤ 1 ∧
      (scale < 1 ↔ (glideAllocate g correction).2.2 = true) ∧
      (glideAllocate g correction).1 = scale * (glideWheelRates g correction).1 ∧
      (glideAllocate g correction).2.1 = scale * (glideWheelRates g correction).2 ∧
      |(glideAllocate g correction).1| ≤ g.cfg.wheelMax ∧
      |(glideAllocate g correction).2.1| ≤ g.cfg.wheelMax := by
  set left := (glideWheelRates g correction).1 with hleft
  set right := (glideWheelRates g correction).2 with hright
  set peak := max |left| |right| with hpeak
  have heq : glideAllocate g correction = if g.cfg.wheelMax < peak then
      (left * (g.cfg.wheelMax / peak), right * (g.cfg.wheelMax / peak), true)
      else (left, right, false) := rfl
  have hl : |left| ≤ peak := le_max_left _ _
  have hr : |right| ≤ peak := le_max_right _ _
  rw [heq]
  split_ifs with hsat
  · have hpos : 0 < peak := hcap.trans hsat
    have hscale : 0 < g.cfg.wheelMax / peak := div_pos hcap hpos
    have hlt : g.cfg.wheelMax / peak < 1 := (div_lt_one hpos).mpr hsat
    -- the larger side comes to the cap, the other one below it
    have hside : ∀ x, |x| ≤ peak → |x * (g.cfg.wheelMax / peak)| ≤ g.cfg.wheelMax := by
      intro x hx
      rw [abs_mul, abs_of_pos hscale]
      calc |x| * (g.cfg.wheelMax / peak) ≤ peak * (g.cfg.wheelMax / peak) :=
            mul_le_mul_of_nonneg_right hx hscale.le
        _ = g.cfg.wheelMax := mul_div_cancel₀ _ hpos.ne'
    exact ⟨_, hscale, hlt.le, by simpa using hlt, mul_comm _ _, mul_comm _ _, hside _ hl,
      hside _ hr⟩
  · rw [not_lt] at hsat
    exact ⟨1, one_pos, le_refl 1, by simp, (one_mul _).symm, (one_mul _).symm, hl.trans hsat,
      hr.trans hsat⟩

/-! ### Runs -/

/-- A call of the controller between two `glide_init`s. -/
inductive GlideEvent
  | update (vx wz gyroZ : ℝ) (trackingGood : Bool) (dt : ℝ)
  | reset

/-- A refused update writes nothing. -/
noncomputable def glideStep (g : Glide ℝ) : GlideEvent → Glide ℝ
  | .update vx wz gyroZ trackingGood dt =>
    ((glideUpdate g vx wz gyroZ trackingGood dt).map Prod.fst).getD g
  | .reset => glideReset g

noncomputable def glideMachine : Machine (Glide ℝ) GlideEvent where
  step := glideStep
  time _ := none

theorem glideWithin_finish {g : Glide ℝ} (hg : GlideWithin g) : GlideWithin (glideFinish g).1 :=
  ⟨hg.accepted, hg.linear, hg.yaw, hg.correctionProfile, hg.integrator⟩

theorem glideWithin_step {g : Glide ℝ} (hg : GlideWithin g) (e : GlideEvent) :
    GlideWithin (glideStep g e) := by
  cases e with
  | reset => exact glideWithin_atRest hg.accepted
  | update vx wz gyroZ trackingGood dt =>
    rw [glideStep]
    by_cases hdt : 0 < dt ∧ dt ≤ 0.1
    · obtain ⟨g', hupdate, hg'⟩ := glideUpdate_within vx wz gyroZ trackingGood hg
        hdt.1 hdt.2
      rw [hupdate]
      exact glideWithin_finish hg'
    · rw [glideUpdate_eq_none hdt]
      exact hg

theorem glideStep_cfg (g : Glide ℝ) (e : GlideEvent) : (glideStep g e).cfg = g.cfg := by
  cases e with
  | reset => rfl
  | update vx wz gyroZ trackingGood dt =>
    rw [glideStep]
    cases hupdate : glideUpdate g vx wz gyroZ trackingGood dt with
    | none => rfl
    | some out => exact glideUpdate_cfg hupdate

/-- No call changes the configuration. -/
theorem glideRun_cfg (g : Glide ℝ) (events : List GlideEvent) :
    (glideMachine.run g events).cfg = g.cfg :=
  Machine.run_invariant (I := fun g' : Glide ℝ => g'.cfg = g.cfg)
    (fun _ e h => (glideStep_cfg _ e).trans h) rfl

/-- Every run of an accepted configuration keeps the bounds. -/
theorem glideWithin_run {g : Glide ℝ} (hg : GlideWithin g) (events : List GlideEvent) :
    GlideWithin (glideMachine.run g events) :=
  Machine.run_invariant (I := GlideWithin) (fun _ e hg => glideWithin_step hg e) hg

/-- What a successful update leaves: the controller and the rates of the two wheels. -/
structure GlideEnvelope (g : Glide ℝ) (left right : ℝ) : Prop where
  linear : |g.linear.velocity| ≤ g.cfg.vxMax
  yaw : |g.yaw.velocity| ≤ g.cfg.wzMax
  correction : |g.correctionProfile.velocity| ≤ g.cfg.correctionMax
  /-- The final clamp changes nothing. -/
  unclamped : g.correction = g.correctionProfile.velocity
  integrator : |g.integrator| ≤ g.cfg.correctionMax
  leftRate : |left| ≤ g.cfg.wheelMax
  rightRate : |right| ≤ g.cfg.wheelMax
  scaled : ∃ scale, 0 ≤ scale ∧ scale ≤ 1 ∧ (scale < 1 ↔ g.saturated = true) ∧
    left = scale * (glideWheelRates g g.correction).1 ∧
    right = scale * (glideWheelRates g g.correction).2

theorem glideFinish_envelope {g : Glide ℝ} (hg : GlideWithin g) :
    GlideEnvelope (glideFinish g).1 (glideFinish g).2.1 (glideFinish g).2.2 := by
  have hcfg := hg.accepted
  have hcorrection := hg.correctionProfile.abs_velocity_le hcfg.correctionJerk
  obtain ⟨scale, hpos, hle, hsat, hleft, hright, hleft', hright'⟩ :=
    glideAllocate_scaled (g := { g with
      correction := clamp g.correctionProfile.velocity g.cfg.correctionMax })
      hcfg.wheelMax (clamp g.correctionProfile.velocity g.cfg.correctionMax)
  exact
    { linear := hg.linear.abs_velocity_le hcfg.jxMax
      yaw := hg.yaw.abs_velocity_le hcfg.jalphaMax
      correction := hcorrection
      unclamped := clamp_of_abs_le hcorrection
      integrator := hg.integrator
      leftRate := hleft'
      rightRate := hright'
      scaled := ⟨scale, hpos.le, hle, hsat, hleft, hright⟩ }

/-- **The envelope of the controller.**  From any accepted configuration, after any
calls, an update succeeds exactly when its time step is in range; a refused one
changes nothing, and a successful one leaves the envelope. -/
theorem glide_envelope {cfg : GlideConfig ℝ} {g₀ : Glide ℝ} (hinit : glideInit cfg = some g₀)
    (events : List GlideEvent) (vx wz gyroZ dt : ℝ) (trackingGood : Bool) :
    let g := glideMachine.run g₀ events
    ((glideUpdate g vx wz gyroZ trackingGood dt).isSome ↔ 0 < dt ∧ dt ≤ 0.1) ∧
    (glideUpdate g vx wz gyroZ trackingGood dt = none →
      glideMachine.step g (.update vx wz gyroZ trackingGood dt) = g) ∧
    ∀ g' left right, glideUpdate g vx wz gyroZ trackingGood dt = some (g', left, right) →
      g'.cfg = cfg ∧ GlideEnvelope g' left right := by
  intro g
  obtain ⟨hcfg, rfl⟩ := glideInit_eq_some_iff.mp hinit
  have hg : GlideWithin g := glideWithin_run (glideWithin_atRest hcfg) events
  refine ⟨?_, ?_, ?_⟩
  · constructor
    · intro hsome
      by_contra hdt
      rw [glideUpdate_eq_none hdt] at hsome
      simp at hsome
    · rintro ⟨hdt, hdt'⟩
      obtain ⟨g', hupdate, -⟩ := glideUpdate_within vx wz gyroZ trackingGood hg hdt hdt'
      simp [hupdate]
  · intro hnone
    show ((glideUpdate g vx wz gyroZ trackingGood dt).map Prod.fst).getD g = g
    rw [hnone]
    rfl
  · intro g' left right hupdate
    have hdt : 0 < dt ∧ dt ≤ 0.1 := by
      by_contra hdt
      rw [glideUpdate_eq_none hdt] at hupdate
      cases hupdate
    obtain ⟨final, hfinal, hwithin⟩ := glideUpdate_within vx wz gyroZ trackingGood hg
      hdt.1 hdt.2
    rw [hfinal] at hupdate
    have hcfg' := (glideUpdate_cfg hfinal).trans (glideRun_cfg (glideAtRest cfg) events)
    cases hupdate
    exact ⟨hcfg', glideFinish_envelope hwithin⟩

theorem glide_envelope_test :
    (glideUpdate (glideMachine.run (glideAtRest glideTestConfig)
      [.update 0.2 0.6 0 true 0.02, .reset]) 0.2 0.6 0.1 false 0.02).isSome = true := by
  refine (glide_envelope (glideInit_eq_some_iff.mpr ⟨glideTestConfig_accepted, rfl⟩)
    [.update 0.2 0.6 0 true 0.02, .reset] 0.2 0.6 0.1 0.02 false).1.mpr ?_
  norm_num
