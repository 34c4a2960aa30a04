/-
The change of the profiles in one update (`glide.c`), over the reals.

A step of a profile changes its velocity and its acceleration by at most the limits
times the time.  An update does one such step of each profile, and then may drop a
profile that has settled, within fixed thresholds that know nothing of the limits.

* `glideUpdate_ramp` — one update: three steps, and what is dropped after them;
* `glide_ramp` — the bounds of every update, with the thresholds as the slack of a
  profile that is dropped;
* `glide_ramp_exceeded` — a dropped profile exceeds them.
-/
import Base101.GlideEnvelope
import Base101.ProfileRamp

open Double

/-! ### One profile -/

section Profile

variable {A J dt : ℝ} {p q : MotionProfile ℝ}

/-- The profile is dropped, from within the thresholds. -/
structure SnapBound (A J dt : ℝ) (p q : MotionProfile ℝ) : Prop where
  rest : q = MotionProfile.zero
  velocity : |q.velocity - p.velocity| < A * dt + 1e-4
  acceleration : |q.acceleration - p.acceleration| < J * dt + 1e-3

theorem RampBound.snap (hpq : RampBound A J dt p q) (hv : |q.velocity| < 1e-4)
    (ha : |q.acceleration| < 1e-3) : SnapBound A J dt p MotionProfile.zero := by
  have hzero : ∀ x y : ℝ, |0 - x| ≤ |y - x| + |y| := by
    intro x y
    calc |0 - x| = |y - x - y| := by ring_nf
      _ ≤ |y - x| + |y| := abs_sub _ _
  refine ⟨rfl, ?_, ?_⟩
  · show |0 - p.velocity| < A * dt + 1e-4
    linarith [hzero p.velocity q.velocity, hpq.velocity]
  · show |0 - p.acceleration| < J * dt + 1e-3
    linarith [hzero p.acceleration q.acceleration, hpq.acceleration]

end Profile

/-! ### One update -/

section Update

variable {g : Glide ℝ} {vx wz gyroZ dt : ℝ} {trackingGood : Bool}

/-- One update: a step of each profile, and then what is dropped. -/
theorem glideUpdate_ramp (vx wz gyroZ : ℝ) (trackingGood : Bool) (hg : GlideWithin g)
    (hdt : 0 < dt) (hdt' : dt ≤ 0.1) :
    ∃ g' p q c, glideUpdate g vx wz gyroZ trackingGood dt = some (glideFinish g') ∧
      motionProfileStep g.linear (clamp vx g.cfg.vxMax) g.cfg.axMax g.cfg.jxMax dt = some p ∧
      motionProfileStep g.yaw (clamp wz g.cfg.wzMax) g.cfg.alphaMax g.cfg.jalphaMax dt = some q ∧
      (∃ target, motionProfileStep g.correctionProfile target g.cfg.correctionAccel
        g.cfg.correctionJerk dt = some c) ∧
      ((vx = 0 ∧ wz = 0 ∧ Settles p q) ∧
          g'.linear = MotionProfile.zero ∧ g'.yaw = MotionProfile.zero ∨
        ¬ (vx = 0 ∧ wz = 0 ∧ Settles p q) ∧ g'.linear = p ∧ g'.yaw = q) ∧
      (g'.correctionProfile = c ∨
        (g.cfg.yawFeedback = false ∨ vx = 0 ∧ wz = 0) ∧ |c.velocity| < 1e-4 ∧
          |c.acceleration| < 1e-3 ∧ g'.correctionProfile = MotionProfile.zero) := by
  have hcfg := hg.accepted
  obtain ⟨p, hp, -⟩ := withinBounds_step (clamp vx g.cfg.vxMax)
    hcfg.axMax hcfg.jxMax hdt hdt' (abs_clamp_le hcfg.vxMax.le) hg.linear
  obtain ⟨q, hq, -⟩ := withinBounds_step (clamp wz g.cfg.wzMax)
    hcfg.alphaMax hcfg.jalphaMax hdt hdt' (abs_clamp_le hcfg.wzMax.le) hg.yaw
  set shaped : Glide ℝ := { g with
    linear := p, yaw := q
    trackingBadS := if trackingGood then 0 else g.trackingBadS + dt } with hshaped
  have hshape : glideShape g vx wz trackingGood dt = some shaped := by
    rw [glideShape, hp, hq]
    rfl
  rw [glideUpdate_eq g vx wz gyroZ trackingGood hdt hdt', hshape, Option.bind_some]
  by_cases hopen : (glideCoasts shaped vx wz || !shaped.cfg.yawFeedback) = true
  · rw [if_pos hopen, glideOpenLoop_eq]
    obtain ⟨c, hc, -⟩ := withinBounds_step 0 hcfg.correctionAccel hcfg.correctionJerk
      hdt hdt' (by simpa using hcfg.correctionMax) hg.correctionProfile
    refine ⟨glideFaded shaped (glideCoasts shaped vx wz) c, p, q, c, ?_, hp, hq, ⟨0, hc⟩, ?_, ?_⟩
    · rw [show motionProfileStep shaped.correctionProfile 0 shaped.cfg.correctionAccel
        shaped.cfg.correctionJerk dt = some c from hc]
      rfl
    · by_cases hcoast : glideCoasts shaped vx wz = true
      · exact Or.inl ⟨(glideCoasts_iff shaped vx wz).mp hcoast, if_pos hcoast, if_pos hcoast⟩
      · exact Or.inr ⟨fun h => hcoast ((glideCoasts_iff shaped vx wz).mpr h), if_neg hcoast,
          if_neg hcoast⟩
    · by_cases hfaded : (fabs c.velocity < 1e-4 && fabs c.acceleration < 1e-3) = true
      · have hthresholds : |c.velocity| < 1e-4 ∧ |c.acceleration| < 1e-3 := by simpa using hfaded
        refine Or.inr ⟨?_, hthresholds.1, hthresholds.2, if_pos hfaded⟩
        rcases Bool.or_eq_true_iff.mp hopen with hcoast | hfeedback
        · obtain ⟨hvx, hwz, -⟩ := (glideCoasts_iff shaped vx wz).mp hcoast
          exact Or.inr ⟨hvx, hwz⟩
        · left
          simpa [hshaped] using hfeedback
      · exact Or.inl (if_neg hfaded)
  · rw [if_neg hopen]
    have hcoast : ¬ (vx = 0 ∧ wz = 0 ∧ Settles p q) := by
      intro h
      exact hopen (by rw [(glideCoasts_iff shaped vx wz).mpr h, Bool.true_or])
    obtain ⟨raw, integrator, -, heq⟩ := glideClosedLoop_eq shaped gyroZ dt
    obtain ⟨c, hc, -⟩ := withinBounds_step (clamp raw g.cfg.correctionMax)
      hcfg.correctionAccel hcfg.correctionJerk hdt hdt' (abs_clamp_le hcfg.correctionMax)
      hg.correctionProfile
    refine ⟨{ shaped with integrator, correctionProfile := c }, p, q, c, ?_, hp, hq, ⟨_, hc⟩,
      Or.inr ⟨hcoast, rfl, rfl⟩, Or.inl rfl⟩
    rw [heq, show motionProfileStep shaped.correctionProfile (clamp raw shaped.cfg.correctionMax)
      shaped.cfg.correctionAccel shaped.cfg.correctionJerk dt = some c from hc]
    rfl

end Update

/-- **The ramps of the controller.**  In every update of every run each profile changes
by at most its limits times the time, unless the update drops it.  The linear and the
yaw profile are dropped together and only under the command zero, the correction only
without yaw closure or under the command zero; a dropped profile is at rest, and has
changed by less than the thresholds more. -/
theorem glide_ramp {cfg : GlideConfig ℝ} {g₀ : Glide ℝ} (hinit : glideInit cfg = some g₀)
    (events : List GlideEvent) {vx wz gyroZ dt left right : ℝ} {trackingGood : Bool}
    {g' : Glide ℝ} (hupdate : glideUpdate (glideMachine.run g₀ events) vx wz gyroZ trackingGood dt =
      some (g', left, right)) :
    let g := glideMachine.run g₀ events
    (RampBound cfg.axMax cfg.jxMax dt g.linear g'.linear ∧
        RampBound cfg.alphaMax cfg.jalphaMax dt g.yaw g'.yaw ∨
      (vx = 0 ∧ wz = 0) ∧ SnapBound cfg.axMax cfg.jxMax dt g.linear g'.linear ∧
        SnapBound cfg.alphaMax cfg.jalphaMax dt g.yaw g'.yaw) ∧
    (RampBound cfg.correctionAccel cfg.correctionJerk dt g.correctionProfile
        g'.correctionProfile ∨
      (cfg.yawFeedback = false ∨ vx = 0 ∧ wz = 0) ∧
        SnapBound cfg.correctionAccel cfg.correctionJerk dt g.correctionProfile
          g'.correctionProfile) := by
  intro g
  obtain ⟨hcfg, rfl⟩ := glideInit_eq_some_iff.mp hinit
  have hg : GlideWithin g := glideWithin_run (glideWithin_atRest hcfg) events
  have hgcfg : g.cfg = cfg := glideRun_cfg (glideAtRest cfg) events
  have hdt : 0 < dt ∧ dt ≤ 0.1 := by
    by_contra hdt
    rw [glideUpdate_eq_none hdt] at hupdate
    cases hupdate
  obtain ⟨final, p, q, c, hfinal, hp, hq, ⟨target, hc⟩, hmotion, hcorrection⟩ := glideUpdate_ramp
    vx wz gyroZ trackingGood hg hdt.1 hdt.2
  rw [hfinal] at hupdate
  cases hupdate
  have hacc := hg.linear.below.1
  have hacc' := hg.yaw.below.1
  have hacc'' := hg.correctionProfile.below.1
  rw [hgcfg] at hp hq hc hcorrection hacc hacc' hacc''
  replace hp := motionProfileStep_ramp hcfg.axMax hcfg.jxMax hdt.1 hdt.2 hacc hp
  replace hq := motionProfileStep_ramp hcfg.alphaMax hcfg.jalphaMax hdt.1 hdt.2 hacc' hq
  replace hc := motionProfileStep_ramp hcfg.correctionAccel hcfg.correctionJerk hdt.1 hdt.2
    hacc'' hc
  constructor
  · rcases hmotion with ⟨⟨hvx, hwz, hsettled⟩, hlinear, hyaw⟩ | ⟨-, hlinear, hyaw⟩
    · obtain ⟨hpv, hqv, hpa, hqa⟩ := hsettled
      refine Or.inr ⟨⟨hvx, hwz⟩, ?_, ?_⟩
      · show SnapBound _ _ dt g.linear final.linear
        rw [hlinear]
        exact hp.snap hpv hpa
      · show SnapBound _ _ dt g.yaw final.yaw
        rw [hyaw]
        exact hq.snap hqv hqa
    · refine Or.inl ⟨?_, ?_⟩
      · show RampBound _ _ dt g.linear final.linear
        rw [hlinear]
        exact hp
      · show RampBound _ _ dt g.yaw final.yaw
        rw [hyaw]
        exact hq
  · show RampBound _ _ dt g.correctionProfile final.correctionProfile ∨
      _ ∧ SnapBound _ _ dt g.correctionProfile final.correctionProfile
    rcases hcorrection with hkept | ⟨hopen, hcv, hca, hdropped⟩
    · rw [hkept]
      exact Or.inl hc
    · rw [hdropped]
      exact Or.inr ⟨hopen, hc.snap hcv hca⟩

/-- The first update of the host test. -/
theorem glide_ramp_test :
    ∃ g' left right, glideUpdate (glideAtRest glideTestConfig) 0.2 0.6 0 true 0.02 =
        some (g', left, right) ∧ |g'.linear.velocity| ≤ 0.014 := by
  obtain ⟨final, hfinal, -⟩ := glideUpdate_within 0.2 0.6 0 true
    (glideWithin_atRest glideTestConfig_accepted) (by norm_num : (0 : ℝ) < 0.02) (by norm_num)
  refine ⟨_, _, _, hfinal, ?_⟩
  rcases (glide_ramp (glideInit_eq_some_iff.mpr ⟨glideTestConfig_accepted, rfl⟩)
    [] hfinal).1 with ⟨hlinear, -⟩ | ⟨⟨hvx, -⟩, -⟩
  · have hv := hlinear.velocity
    norm_num [glideMachine, glideAtRest, MotionProfile.zero, glideTestConfig] at hv ⊢
    exact hv
  · norm_num at hvx

/-- Full jerk for 10 us, from rest. -/
theorem start_acceleration {p : MotionProfile ℝ}
    (hp : motionProfileStep MotionProfile.zero 0.75 0.7 2 1e-5 = some p) :
    p.acceleration = 2e-5 := by
  rw [motionProfileStep_eq_some (by norm_num) (by norm_num) (by norm_num) (by norm_num)
    (by norm_num [MotionProfile.zero]), motionProfileSteps_short (by norm_num) (by norm_num)] at hp
  obtain rfl := Option.some.inj hp
  have hdesired : 2e-5 ≤ desiredAcceleration 0.7 2 (0.75 : ℝ) := by
    have hroot : (1 : ℝ) ≤ √(2 * |0.75|) := by
      rw [Real.one_le_sqrt]
      norm_num [abs_of_pos]
    have hmag : 2e-5 ≤ min (0.7 : ℝ) (min (6.0 * |0.75|) √(2 * |0.75|)) := by
      refine le_min (by norm_num) (le_min (by norm_num [abs_of_pos]) ?_)
      exact le_trans (by norm_num) hroot
    rw [desiredAcceleration]
    simp only [fabs_exact, fmin_exact, sqrt_real]
    rw [copysign_of_nonneg (le_trans (by norm_num) hmag) (by norm_num)]
    exact hmag
  have hone : motionProfileLoop 0.75 0.7 2 1e-5 1 (MotionProfile.zero : MotionProfile ℝ) =
      motionProfileSubstep 0.75 0.7 2 1e-5 MotionProfile.zero := by
    rw [motionProfileLoop, motionProfileSteps_short (by norm_num) (by norm_num)]
    simp
  rw [hone, substep_acceleration]
  simp only [MotionProfile.zero, sub_zero, zero_add]
  rw [min_eq_left (le_trans (by norm_num) hdesired)]
  norm_num

/-- A short start and a shorter stop: the acceleration that is dropped is a hundred times
what the jerk limit allows in the time. -/
theorem glide_ramp_exceeded :
    let g := glideMachine.run (glideAtRest glideTestConfig) [.update 0.75 0 0 true 1e-5]
    ∃ g' left right, glideUpdate g 0 0 0 true 1e-7 = some (g', left, right) ∧
      glideTestConfig.jxMax * 1e-7 < |g'.linear.acceleration - g.linear.acceleration| := by
  intro g
  have hrest := glideWithin_atRest glideTestConfig_accepted
  obtain ⟨start, p, q, c, hstart, hp, hq, -, hmotion, -⟩ := glideUpdate_ramp 0.75 0 0 true
    hrest (by norm_num : (0 : ℝ) < 1e-5) (by norm_num)
  have hg : g = (glideFinish start).1 := by
    show ((glideUpdate _ _ _ _ _ _).map Prod.fst).getD _ = _
    rw [hstart]
    rfl
  have hmoving : start.linear = p ∧ start.yaw = q := by
    rcases hmotion with ⟨⟨hvx, -⟩, -⟩ | ⟨-, h⟩
    · norm_num at hvx
    · exact h
  have hlinear : g.linear = p := by
    rw [hg]
    exact hmoving.1
  have hyaw : g.yaw = q := by
    rw [hg]
    exact hmoving.2
  have hcap : clamp (0.75 : ℝ) glideTestConfig.vxMax = 0.75 :=
    clamp_of_abs_le (by norm_num [glideTestConfig, abs_of_pos])
  have hp' : motionProfileStep MotionProfile.zero (clamp 0.75 glideTestConfig.vxMax) 0.7 2 1e-5 =
    some p := hp
  rw [hcap] at hp'
  have hpacc := start_acceleration hp'
  -- both profiles are within the thresholds, before and after the second update
  have hramp : RampBound 0.7 2 1e-5 MotionProfile.zero p :=
    motionProfileStep_ramp (by norm_num) (by norm_num) (by norm_num) (by norm_num)
      hrest.linear.below.1 hp
  have hramp' : RampBound 3 10 1e-5 MotionProfile.zero q :=
    motionProfileStep_ramp (by norm_num) (by norm_num) (by norm_num) (by norm_num)
      hrest.yaw.below.1 hq
  have hgwithin : GlideWithin g := glideWithin_run hrest _
  have hgcfg : g.cfg = glideTestConfig := glideRun_cfg _ _
  obtain ⟨final, p₂, q₂, c₂, hfinal, hp₂, hq₂, -, hmotion₂, -⟩ := glideUpdate_ramp 0 0 0 true
    hgwithin (by norm_num : (0 : ℝ) < 1e-7) (by norm_num)
  have hacc := hgwithin.linear.below.1
  have hacc' := hgwithin.yaw.below.1
  rw [hgcfg, hlinear] at hp₂ hacc
  rw [hgcfg, hyaw] at hq₂ hacc'
  have hramp₂ : RampBound 0.7 2 1e-7 p p₂ :=
    motionProfileStep_ramp (by norm_num) (by norm_num) (by norm_num) (by norm_num) hacc hp₂
  have hramp₂' : RampBound 3 10 1e-7 q q₂ :=
    motionProfileStep_ramp (by norm_num) (by norm_num) (by norm_num) (by norm_num) hacc' hq₂
  have hsettled : Settles p₂ q₂ := by
    obtain ⟨hpv, hpa⟩ := hramp.trans hramp₂
    obtain ⟨hqv, hqa⟩ := hramp'.trans hramp₂'
    simp only [MotionProfile.zero, sub_zero] at hpv hpa hqv hqa
    refine ⟨hpv.trans_lt ?_, hqv.trans_lt ?_, hpa.trans_lt ?_, hqa.trans_lt ?_⟩
    all_goals norm_num
  refine ⟨_, _, _, hfinal, ?_⟩
  rcases hmotion₂ with ⟨-, hdropped, -⟩ | ⟨hnot, -⟩
  · show _ < |final.linear.acceleration - g.linear.acceleration|
    rw [hdropped, hlinear, hpacc]
    norm_num [MotionProfile.zero, glideTestConfig, abs_of_pos]
  · exact absurd ⟨rfl, rfl, hsettled⟩ hnot
