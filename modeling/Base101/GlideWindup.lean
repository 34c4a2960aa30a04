/-
The integrator of the yaw loop (`glide.c`), over the reals.

The loop integrates its error unless the wheels or the correction saturate, or the
motors fail to track; an error against the integrator is integrated in any case.  The
saturation it asks about is that of the correction before it is jerk-limited.

* `AntiWindup` — on an update that is reported as saturated, whose correction exceeds
  its cap, or without tracking, the integrator freezes or unwinds;
* `anti_windup_iff` — this holds exactly if no step against the integrator is larger
  than it, and the lagging correction does not saturate the wheels where the asked one
  does not;
* `integrator_overshoots` — an integrator that unwinds past zero.
-/
import Base101.GlideCurvature
import Base101.GlideRamp

open Double

/-! ### The clamp -/

theorem clamp_eq (x limit : ℝ) : clamp x limit = max (-limit) (min limit x) := rfl

/-- The clamp is odd. -/
theorem clamp_neg {x limit : ℝ} (h : 0 ≤ limit) : clamp (-x) limit = -clamp x limit := by
  rw [clamp_eq, clamp_eq, ← min_neg_neg, ← max_neg_neg, neg_neg, max_min_distrib_left,
    max_eq_right (by linarith : -limit ≤ limit)]

section Step

variable {I s limit : ℝ}

theorem mem_uIcc_neg {a x : ℝ} : -x ∈ Set.uIcc 0 (-a) ↔ x ∈ Set.uIcc 0 a := by
  rw [Set.mem_uIcc, Set.mem_uIcc]
  constructor
  · rintro (⟨h, h'⟩ | ⟨h, h'⟩)
    · exact .inr ⟨by linarith, by linarith⟩
    · exact .inl ⟨by linarith, by linarith⟩
  · rintro (⟨h, h'⟩ | ⟨h, h'⟩)
    · exact .inr ⟨by linarith, by linarith⟩
    · exact .inl ⟨by linarith, by linarith⟩

/-- A step against the integrator unwinds it exactly if it is no larger. -/
theorem clamp_unwinds_iff (hI : |I| ≤ limit) (hne : I ≠ 0) (hs : I * s ≤ 0) :
    clamp (I + s) limit ∈ Set.uIcc 0 I ↔ |s| ≤ |I| := by
  -- for a positive integrator; the other sign is its mirror image
  have hpos {I s : ℝ} (hI : |I| ≤ limit) (hpos : 0 < I) (hs : I * s ≤ 0) :
      clamp (I + s) limit ∈ Set.uIcc 0 I ↔ |s| ≤ |I| := by
    have hs : s ≤ 0 := nonpos_of_mul_nonpos_right hs hpos
    rw [abs_of_pos hpos] at hI ⊢
    rw [abs_of_nonpos hs, Set.uIcc_of_le hpos.le, clamp_eq, min_eq_right (by linarith)]
    constructor
    · rintro ⟨hlow, -⟩
      rcases le_max_iff.mp hlow with h | h
      · linarith
      · linarith
    · intro h
      rw [max_eq_right (by linarith)]
      exact ⟨by linarith, by linarith⟩
  rcases lt_or_gt_of_ne hne with hneg | hpos'
  · have hmirror := hpos (I := -I) (s := -s) (by rwa [abs_neg]) (by linarith) (by linarith)
    rw [← neg_add, clamp_neg ((abs_nonneg I).trans hI), mem_uIcc_neg, abs_neg, abs_neg] at hmirror
    exact hmirror
  · exact hpos hI hpos' hs

/-- A step with the integrator leaves it where it is, only if it is zero or clamped away. -/
theorem clamp_frozen_iff (hI : |I| ≤ limit) (hs : 0 ≤ I * s) :
    clamp (I + s) limit ∈ Set.uIcc 0 I ↔ s = 0 ∨ |I| = limit := by
  have hlimit : 0 ≤ limit := (abs_nonneg I).trans hI
  have hpos {I s : ℝ} (hI : |I| ≤ limit) (hpos : 0 < I) (hs : 0 ≤ I * s) :
      clamp (I + s) limit ∈ Set.uIcc 0 I ↔ s = 0 ∨ |I| = limit := by
    have hs : 0 ≤ s := nonneg_of_mul_nonneg_right hs hpos
    rw [abs_of_pos hpos] at hI ⊢
    rw [Set.uIcc_of_le hpos.le, clamp_eq,
      max_eq_right ((by linarith : -limit ≤ 0).trans (le_min hlimit (by linarith)))]
    constructor
    · rintro ⟨-, hhigh⟩
      rcases min_le_iff.mp hhigh with h | h
      · exact .inr (le_antisymm hI h)
      · exact .inl (by linarith)
    · rintro (rfl | h)
      · rw [add_zero, min_eq_right hI]
        exact ⟨hpos.le, le_rfl⟩
      · rw [← h, min_eq_left (by linarith)]
        exact ⟨hpos.le, le_rfl⟩
  rcases lt_trichotomy I 0 with hneg | rfl | hpos'
  · have hmirror := hpos (I := -I) (s := -s) (by rwa [abs_neg]) (by linarith) (by linarith)
    rw [← neg_add, clamp_neg hlimit, mem_uIcc_neg, abs_neg, neg_eq_zero] at hmirror
    exact hmirror
  · rw [zero_add, Set.uIcc_self, Set.mem_singleton_iff, abs_zero]
    constructor
    · intro hzero
      by_cases hs0 : |s| ≤ limit
      · left
        rwa [clamp_of_abs_le hs0] at hzero
      · right
        -- a step beyond the limit is clamped to it
        rw [clamp_eq] at hzero
        rcases max_choice (-limit) (min limit s) with h | h
        · rw [h] at hzero
          linarith
        · rw [h] at hzero
          rcases min_choice limit s with h' | h'
          · rw [h'] at hzero
            exact hzero.symm
          · rw [h'] at hzero
            rw [hzero, abs_zero] at hs0
            exact absurd hlimit hs0
    · rintro (rfl | h)
      · exact clamp_of_abs_le (by rw [abs_zero]; exact hlimit)
      · rw [← h, clamp_eq]
        rcases le_total 0 s with h' | h'
        · rw [min_eq_left h', neg_zero, max_self]
        · rw [min_eq_right h', neg_zero, max_eq_left h']
  · exact hpos hI hpos' hs

end Step

/-! ### The closed loop -/

section Loop

variable (g : Glide ℝ) (gyroZ dt : ℝ)

/-- The yaw rate error, outside the deadband. -/
noncomputable def yawError : ℝ :=
  if |g.yaw.velocity - gyroZ| < g.cfg.deadband then 0 else g.yaw.velocity - gyroZ

noncomputable def integralStep : ℝ := g.cfg.yawKi * yawError g gyroZ * dt

noncomputable def integratorCandidate : ℝ :=
  clamp (g.integrator + integralStep g gyroZ dt) g.cfg.correctionMax

noncomputable def rawCorrection : ℝ :=
  g.cfg.yawKp * yawError g gyroZ + integratorCandidate g gyroZ dt

/-- The wheels saturate at a correction. -/
def Saturates (correction : ℝ) : Prop := (glideAllocate g correction).2.2 = true

/-- They do at the correction that follows the asked one with limited jerk. -/
def LaggedSaturates : Prop :=
  ∃ profile, motionProfileStep g.correctionProfile
    (clamp (rawCorrection g gyroZ dt) g.cfg.correctionMax) g.cfg.correctionAccel
    g.cfg.correctionJerk dt = some profile ∧
    Saturates g (clamp profile.velocity g.cfg.correctionMax)

/-- What makes the loop freeze the integrator. -/
def Constrained : Prop :=
  Saturates g (clamp (rawCorrection g gyroZ dt) g.cfg.correctionMax) ∨
    g.cfg.correctionMax < |rawCorrection g gyroZ dt| ∨ 0.2 ≤ g.trackingBadS

/-- The integrator after the update. -/
noncomputable def nextIntegrator : ℝ :=
  if !((glideAllocate g (clamp (rawCorrection g gyroZ dt) g.cfg.correctionMax)).2.2 ||
      decide (g.cfg.correctionMax < |rawCorrection g gyroZ dt|) ||
      decide ((0.2 : ℝ) ≤ g.trackingBadS)) ||
      decide (g.integrator * yawError g gyroZ < 0) then integratorCandidate g gyroZ dt
  else g.integrator

/-- What an update has to meet: a step against the integrator is no larger than it, and
where only the lagging correction saturates there is no step. -/
structure Unwinds : Prop where
  against : g.integrator * yawError g gyroZ < 0 →
    LaggedSaturates g gyroZ dt ∨ g.cfg.correctionMax < |rawCorrection g gyroZ dt| ∨
      0.2 ≤ g.trackingBadS →
    |integralStep g gyroZ dt| ≤ |g.integrator|
  lagging : 0 ≤ g.integrator * yawError g gyroZ → LaggedSaturates g gyroZ dt →
    ¬Constrained g gyroZ dt →
    integralStep g gyroZ dt = 0 ∨ |g.integrator| = g.cfg.correctionMax

variable {g gyroZ dt}

/-- The candidate is taken unless the loop is constrained, or against the integrator. -/
theorem nextIntegrator_cases (g : Glide ℝ) (gyroZ dt : ℝ) :
    (nextIntegrator g gyroZ dt = integratorCandidate g gyroZ dt ∧
        (¬Constrained g gyroZ dt ∨ g.integrator * yawError g gyroZ < 0)) ∨
      (nextIntegrator g gyroZ dt = g.integrator ∧ Constrained g gyroZ dt ∧
        0 ≤ g.integrator * yawError g gyroZ) := by
  have hconstrained :
      ((glideAllocate g (clamp (rawCorrection g gyroZ dt) g.cfg.correctionMax)).2.2 ||
        decide (g.cfg.correctionMax < |rawCorrection g gyroZ dt|) ||
        decide ((0.2 : ℝ) ≤ g.trackingBadS)) = true ↔ Constrained g gyroZ dt := by
    rw [Constrained, Saturates]
    simp only [Bool.or_eq_true, decide_eq_true_eq, or_assoc]
  rw [nextIntegrator]
  set constrained := (glideAllocate g (clamp (rawCorrection g gyroZ dt)
    g.cfg.correctionMax)).2.2 || decide (g.cfg.correctionMax < |rawCorrection g gyroZ dt|) ||
    decide ((0.2 : ℝ) ≤ g.trackingBadS)
  by_cases htake : (!constrained || decide (g.integrator * yawError g gyroZ < 0)) = true
  · rw [if_pos htake]
    refine .inl ⟨rfl, ?_⟩
    rw [← hconstrained]
    simpa using htake
  · rw [if_neg htake]
    refine .inr ⟨rfl, ?_⟩
    rw [← hconstrained]
    simpa using htake

/-- The closed loop: the integrator, and the correction after its profile. -/
theorem glideClosedLoop_next (g : Glide ℝ) (gyroZ dt : ℝ) :
    glideClosedLoop g gyroZ dt = (motionProfileStep g.correctionProfile
      (clamp (g.cfg.yawKp * yawError g gyroZ + nextIntegrator g gyroZ dt) g.cfg.correctionMax)
      g.cfg.correctionAccel g.cfg.correctionJerk dt).bind fun profile =>
        some (glideFinish { g with
          integrator := nextIntegrator g gyroZ dt
          correctionProfile := profile }) := rfl

theorem glideClosedLoop_some {g' : Glide ℝ} {left right : ℝ}
    (h : glideClosedLoop g gyroZ dt = some (g', left, right)) :
    ∃ profile, motionProfileStep g.correctionProfile
        (clamp (g.cfg.yawKp * yawError g gyroZ + nextIntegrator g gyroZ dt) g.cfg.correctionMax)
        g.cfg.correctionAccel g.cfg.correctionJerk dt = some profile ∧
      (g', left, right) = glideFinish { g with
        integrator := nextIntegrator g gyroZ dt
        correctionProfile := profile } := by
  rw [glideClosedLoop_next] at h
  obtain ⟨profile, hprofile, h⟩ := Option.bind_eq_some_iff.mp h
  exact ⟨profile, hprofile, (Option.some.inj h).symm⟩

/-- An update that was constrained leaves the integrator between zero and where it was. -/
def AntiWindup (g shaped : Glide ℝ) (gyroZ dt : ℝ) (g' : Glide ℝ) : Prop :=
  g'.saturated = true ∨ shaped.cfg.correctionMax < |rawCorrection shaped gyroZ dt| ∨
      0.2 ≤ g'.trackingBadS →
    g'.integrator ∈ Set.uIcc 0 g.integrator

theorem antiWindup_iff_unwinds {g' : Glide ℝ} {left right : ℝ} (hg : GlideWithin g)
    (hki : 0 ≤ g.cfg.yawKi) (hdt : 0 < dt)
    (h : glideClosedLoop g gyroZ dt = some (g', left, right)) :
    AntiWindup g g gyroZ dt g' ↔ Unwinds g gyroZ dt := by
  obtain ⟨profile, hprofile, hout⟩ := glideClosedLoop_some h
  have hnew : g'.integrator = nextIntegrator g gyroZ dt :=
    congrArg (fun out => out.1.integrator) hout
  have htracking : g'.trackingBadS = g.trackingBadS :=
    congrArg (fun out => out.1.trackingBadS) hout
  have hsaturated : g'.saturated = true ↔
      Saturates g (clamp profile.velocity g.cfg.correctionMax) := by
    rw [show g'.saturated = _ from congrArg (fun out => out.1.saturated) hout]
    exact Iff.rfl
  have hsign : g.integrator * integralStep g gyroZ dt =
      g.cfg.yawKi * dt * (g.integrator * yawError g gyroZ) := by
    rw [integralStep]
    ring
  have hscale : 0 ≤ g.cfg.yawKi * dt := mul_nonneg hki hdt.le
  rw [AntiWindup, hnew, htracking, hsaturated]
  rcases nextIntegrator_cases g gyroZ dt with ⟨hnext, htaken⟩ | ⟨hnext, hconstrained, hwith⟩
  · -- the candidate is taken, and the correction follows it
    rw [hnext] at hprofile ⊢
    have hlagged : LaggedSaturates g gyroZ dt ↔
        Saturates g (clamp profile.velocity g.cfg.correctionMax) := by
      constructor
      · rintro ⟨profile', hprofile', hsaturates⟩
        have hsame := hprofile.symm.trans hprofile'
        obtain rfl := Option.some.inj hsame
        exact hsaturates
      · exact fun hsaturates => ⟨profile, hprofile, hsaturates⟩
    rw [← hlagged]
    by_cases hagainst : g.integrator * yawError g gyroZ < 0
    · have hne : g.integrator ≠ 0 := by
        intro hzero
        rw [hzero, zero_mul] at hagainst
        exact lt_irrefl 0 hagainst
      have hstep : g.integrator * integralStep g gyroZ dt ≤ 0 := by
        rw [hsign]
        exact mul_nonpos_of_nonneg_of_nonpos hscale hagainst.le
      have hunwinds := clamp_unwinds_iff hg.integrator hne hstep
      constructor
      · intro hwindup
        exact ⟨fun _ hcause => hunwinds.mp (hwindup hcause),
          fun hwith => absurd hagainst (not_lt.mpr hwith)⟩
      · intro hcondition hcause
        exact hunwinds.mpr (hcondition.against hagainst hcause)
    · have hwith := not_lt.mp hagainst
      have hfree : ¬Constrained g gyroZ dt := htaken.resolve_right hagainst
      have hstep : 0 ≤ g.integrator * integralStep g gyroZ dt := by
        rw [hsign]
        exact mul_nonneg hscale hwith
      have hfrozen := clamp_frozen_iff hg.integrator hstep
      constructor
      · intro hwindup
        exact ⟨fun hneg => absurd hneg hagainst,
          fun _ hcause _ => hfrozen.mp (hwindup (.inl hcause))⟩
      · intro hcondition hcause
        -- the other causes would have constrained the loop
        have hcause : LaggedSaturates g gyroZ dt := by
          rcases hcause with hcause | hcause
          · exact hcause
          · exact absurd (.inr hcause) hfree
        exact hfrozen.mpr (hcondition.lagging hwith hcause hfree)
  · -- frozen
    rw [hnext]
    constructor
    · intro _
      exact ⟨fun hagainst => absurd hagainst (not_lt.mpr hwith),
        fun _ _ hfree => absurd hconstrained hfree⟩
    · exact fun _ _ => Set.right_mem_uIcc

end Loop

theorem GlideConfig.Accepted.yawKi {cfg : GlideConfig ℝ} (h : cfg.Accepted) : 0 ≤ cfg.yawKi :=
  h.nonnegative _ (by simp [GlideConfig.nonnegative])

/-- The shaping steps the two profiles and the time without tracking, and leaves the
integrator and the correction alone. -/
theorem glideShape_some {g g' : Glide ℝ} {vx wz dt : ℝ} {trackingGood : Bool}
    (h : glideShape g vx wz trackingGood dt = some g') :
    ∃ linear yaw,
      motionProfileStep g.linear (clamp vx g.cfg.vxMax) g.cfg.axMax g.cfg.jxMax dt = some linear ∧
      motionProfileStep g.yaw (clamp wz g.cfg.wzMax) g.cfg.alphaMax g.cfg.jalphaMax dt =
        some yaw ∧
      g' = { g with
        linear, yaw, trackingBadS := if trackingGood then 0 else g.trackingBadS + dt } := by
  simp only [glideShape, Option.bind_eq_bind, Option.bind_eq_some_iff] at h
  obtain ⟨linear, hlinear, yaw, hyaw, h⟩ := h
  exact ⟨linear, yaw, hlinear, hyaw, (Option.some.inj h).symm⟩

theorem glideShape_integrator {g g' : Glide ℝ} {vx wz dt : ℝ} {trackingGood : Bool}
    (h : glideShape g vx wz trackingGood dt = some g') : g'.integrator = g.integrator := by
  obtain ⟨linear, yaw, -, -, rfl⟩ := glideShape_some h
  rfl

/-- What a successful update does after the shaping. -/
theorem glideUpdate_some {g g' : Glide ℝ} {vx wz gyroZ dt left right : ℝ} {trackingGood : Bool}
    (h : glideUpdate g vx wz gyroZ trackingGood dt = some (g', left, right)) :
    (0 < dt ∧ dt ≤ 0.1) ∧ ∃ shaped, glideShape g vx wz trackingGood dt = some shaped ∧
      (if glideCoasts shaped vx wz || !shaped.cfg.yawFeedback then
        glideOpenLoop shaped (glideCoasts shaped vx wz) dt
      else glideClosedLoop shaped gyroZ dt) = some (g', left, right) := by
  have hdt : 0 < dt ∧ dt ≤ 0.1 := by
    by_contra hdt
    rw [glideUpdate_eq_none hdt] at h
    cases h
  refine ⟨hdt, ?_⟩
  rw [glideUpdate_eq g vx wz gyroZ trackingGood hdt.1 hdt.2] at h
  exact Option.bind_eq_some_iff.mp h

/-- The integrator freezes or unwinds on every constrained update of the closed loop,
exactly if the update meets `Unwinds`. -/
theorem anti_windup_iff {cfg : GlideConfig ℝ} {g₀ : Glide ℝ} (hinit : glideInit cfg = some g₀)
    (events : List GlideEvent) {vx wz gyroZ dt left right : ℝ} {trackingGood : Bool}
    {shaped g' : Glide ℝ}
    (hshape : glideShape (glideMachine.run g₀ events) vx wz trackingGood dt = some shaped)
    (hclosed : (glideCoasts shaped vx wz || !shaped.cfg.yawFeedback) = false)
    (hupdate : glideUpdate (glideMachine.run g₀ events) vx wz gyroZ trackingGood dt =
      some (g', left, right)) :
    AntiWindup (glideMachine.run g₀ events) shaped gyroZ dt g' ↔ Unwinds shaped gyroZ dt := by
  obtain ⟨hcfg, rfl⟩ := glideInit_eq_some_iff.mp hinit
  have hrun := glideWithin_run (glideWithin_atRest hcfg) events
  obtain ⟨⟨hdt, hdt'⟩, shaped', hshape', hloop⟩ := glideUpdate_some hupdate
  obtain rfl := Option.some.inj (hshape.symm.trans hshape')
  rw [hclosed, if_neg (by simp)] at hloop
  obtain ⟨within, hwithin, hg⟩ := glideShape_within vx wz trackingGood hrun hdt hdt'
  obtain rfl := Option.some.inj (hshape.symm.trans hwithin)
  have hold : AntiWindup (glideMachine.run (glideAtRest cfg) events) shaped gyroZ dt g' ↔
      AntiWindup shaped shaped gyroZ dt g' := by
    rw [AntiWindup, AntiWindup, glideShape_integrator hshape]
  rw [hold]
  exact antiWindup_iff_unwinds hg hg.accepted.yawKi hdt hloop

/-! ### Straight ahead -/

section Straight

variable {g g' shaped : Glide ℝ} {vx gyroZ dt left right : ℝ}

/-- The controller of the host test, driving straight ahead. -/
structure Straight (g : Glide ℝ) : Prop where
  cfg : g.cfg = glideTestConfig
  within : GlideWithin g
  yaw : g.yaw = MotionProfile.zero

/-- With no turn commanded the yaw profile stays at rest, and the error is the gyro's. -/
theorem Straight.shape (hg : Straight g) (vx : ℝ) (hdt : 0 < dt) (hdt' : dt ≤ 0.1) :
    ∃ shaped, glideShape g vx 0 true dt = some shaped ∧ Straight shaped ∧
      shaped.integrator = g.integrator ∧ shaped.trackingBadS = 0 ∧
      |shaped.linear.velocity - g.linear.velocity| ≤ 0.7 * dt := by
  obtain ⟨shaped, hshape, hwithin⟩ := glideShape_within vx 0 true hg.within hdt hdt'
  obtain ⟨linear, yaw, hlinear, hyaw, rfl⟩ := glideShape_some hshape
  have hcfg := hg.within.accepted
  have hramp := motionProfileStep_ramp hcfg.axMax hcfg.jxMax hdt hdt' hg.within.linear.below.1
    hlinear
  have hrest : yaw = MotionProfile.zero := by
    rw [hg.yaw, clamp_of_abs_le (by simpa using hcfg.wzMax.le),
      motionProfileStep_eq_some hcfg.alphaMax hcfg.jalphaMax hdt hdt'
        (by simpa [MotionProfile.zero] using hcfg.alphaMax.le),
      motionProfileLoop_rest hcfg.alphaMax.le hcfg.jalphaMax.le hdt] at hyaw
    exact (Option.some.inj hyaw).symm
  refine ⟨_, hshape, ⟨hg.cfg, hwithin, hrest⟩, rfl, rfl, ?_⟩
  have hv := hramp.velocity
  rw [hg.cfg] at hv
  exact hv

theorem Straight.error (hg : Straight g) (hgyro : 0.005 ≤ |gyroZ|) :
    yawError g gyroZ = -gyroZ := by
  have hzero : g.yaw.velocity - gyroZ = -gyroZ := by
    rw [hg.yaw]
    exact zero_sub gyroZ
  rw [yawError, hzero, abs_neg, hg.cfg]
  exact if_neg (not_lt.mpr hgyro)

/-- Its update closes the yaw loop. -/
theorem Straight.update (hg : Straight g) (gyroZ : ℝ) (hvx : vx ≠ 0) (hdt : 0 < dt)
    (hdt' : dt ≤ 0.1) :
    ∃ shaped g' left right, glideShape g vx 0 true dt = some shaped ∧ Straight shaped ∧
      shaped.integrator = g.integrator ∧ shaped.trackingBadS = 0 ∧
      |shaped.linear.velocity - g.linear.velocity| ≤ 0.7 * dt ∧
      (glideCoasts shaped vx 0 || !shaped.cfg.yawFeedback) = false ∧
      glideUpdate g vx 0 gyroZ true dt = some (g', left, right) ∧
      glideClosedLoop shaped gyroZ dt = some (g', left, right) ∧ Straight g' := by
  obtain ⟨shaped, hshape, hshaped, hintegrator, htracking, hv⟩ := hg.shape vx hdt hdt'
  obtain ⟨final, hupdate, hfinal⟩ := glideUpdate_within vx 0 gyroZ true hg.within hdt hdt'
  have hclosed : (glideCoasts shaped vx 0 || !shaped.cfg.yawFeedback) = false := by
    have hcoast : glideCoasts shaped vx 0 = false := by
      rw [← Bool.not_eq_true, glideCoasts_iff]
      exact fun h => hvx h.1
    rw [hcoast, hshaped.cfg]
    rfl
  obtain ⟨-, shaped', hshape', hloop⟩ := glideUpdate_some hupdate
  obtain rfl := Option.some.inj (hshape.symm.trans hshape')
  rw [hclosed, if_neg (by simp)] at hloop
  refine ⟨shaped, _, _, _, hshape, hshaped, hintegrator, htracking, hv, hclosed, hupdate, hloop,
    ?_, glideWithin_finish hfinal, ?_⟩
  · exact (glideUpdate_cfg hupdate).trans hg.cfg
  · obtain ⟨profile, -, hout⟩ := glideClosedLoop_some hloop
    exact (congrArg (fun out => out.1.yaw) hout).trans hshaped.yaw

end Straight

theorem straight_atRest : Straight (glideAtRest glideTestConfig) :=
  ⟨rfl, glideWithin_atRest glideTestConfig_accepted, rfl⟩

/-- Slow driving never saturates the wheels of the host test. -/
theorem Straight.not_saturates {g : Glide ℝ} {correction : ℝ} (hg : Straight g)
    (hv : |g.linear.velocity| ≤ 0.1) (hcorrection : |correction| ≤ 0.5) :
    ¬Saturates g correction := by
  obtain ⟨hlow, hhigh⟩ := abs_le.mp hv
  obtain ⟨hclow, hchigh⟩ := abs_le.mp hcorrection
  have hrate : ∀ turn : ℝ, |turn| ≤ 0.2 → |(g.linear.velocity + turn) / 0.0363| ≤ 20.94 := by
    intro turn hturn
    obtain ⟨htlow, hthigh⟩ := abs_le.mp hturn
    rw [abs_div, abs_of_pos (by norm_num : (0 : ℝ) < 0.0363), div_le_iff₀ (by norm_num), abs_le]
    constructor
    · norm_num at hlow htlow ⊢
      linarith
    · norm_num at hhigh hthigh ⊢
      linarith
  have hturn : |correction * 1.5 * 0.2899 * 0.5| ≤ 0.2 := by
    rw [abs_le]
    constructor
    · norm_num at hclow ⊢
      linarith
    · norm_num at hchigh ⊢
      linarith
  have hpeak : ¬ (20.94 : ℝ) < max |(g.linear.velocity - correction * 1.5 * 0.2899 * 0.5) / 0.0363|
      |(g.linear.velocity + correction * 1.5 * 0.2899 * 0.5) / 0.0363| := by
    refine not_lt.mpr (max_le ?_ (hrate _ hturn))
    rw [sub_eq_add_neg]
    exact hrate _ (by rwa [abs_neg])
  rw [Saturates, glideAllocate, hg.cfg, hg.yaw]
  simp only [MotionProfile.zero, zero_add, fabs_exact, fmax_exact, glideTestConfig, if_neg hpeak]
  simp

/-- Straight ahead for a tenth of a second, with a gust from one side. -/
noncomputable def gustGlide : Glide ℝ :=
  glideMachine.run (glideAtRest glideTestConfig) [.update 0.1 0 (-0.5) true 0.1]

/-- The gust is integrated: nothing constrains the loop. -/
theorem straight_gust : Straight gustGlide ∧ gustGlide.integrator = 0.015 := by
  obtain ⟨shaped, g, left, right, -, hshaped, hinit, htracking, hv, -, hupdate, hloop,
    hstraight⟩ := straight_atRest.update (-0.5) (by norm_num : (0.1 : ℝ) ≠ 0)
      (by norm_num : (0 : ℝ) < 0.1) (le_refl 0.1)
  have hg : gustGlide = g := by
    show ((glideUpdate _ _ _ _ _ _).map Prod.fst).getD _ = _
    rw [hupdate]
    rfl
  have herror : yawError shaped (-0.5) = 0.5 := by
    rw [hshaped.error (by norm_num)]
    norm_num
  have hslow : |shaped.linear.velocity| ≤ 0.1 := by
    have hv : |shaped.linear.velocity - 0| ≤ 0.7 * 0.1 := hv
    rw [sub_zero] at hv
    exact hv.trans (by norm_num)
  have hcandidate : integratorCandidate shaped (-0.5) 0.1 = 0.015 := by
    rw [integratorCandidate, integralStep, herror, hinit, hshaped.cfg]
    show clamp ((0 : ℝ) + 0.3 * 0.5 * 0.1) 0.5 = 0.015
    rw [clamp_of_abs_le (by norm_num [abs_of_pos])]
    norm_num
  have hraw : rawCorrection shaped (-0.5) 0.1 = 0.265 := by
    rw [rawCorrection, hcandidate, herror, hshaped.cfg]
    show (0.5 : ℝ) * 0.5 + 0.015 = 0.265
    norm_num
  have hfree : ¬Constrained shaped (-0.5) 0.1 := by
    rw [Constrained, hraw, htracking, hshaped.cfg]
    show ¬(Saturates shaped (clamp 0.265 0.5) ∨ (0.5 : ℝ) < |0.265| ∨ (0.2 : ℝ) ≤ 0)
    rintro (h | h | h)
    · refine hshaped.not_saturates hslow ?_ h
      exact abs_clamp_le (by norm_num)
    · norm_num [abs_of_pos] at h
    · norm_num at h
  rw [hg]
  refine ⟨hstraight, ?_⟩
  obtain ⟨profile, -, hout⟩ := glideClosedLoop_some hloop
  have hnew : g.integrator = nextIntegrator shaped (-0.5) 0.1 :=
    congrArg (fun out => out.1.integrator) hout
  rw [hnew]
  rcases nextIntegrator_cases shaped (-0.5) 0.1 with ⟨hnext, -⟩ | ⟨-, hconstrained, -⟩
  · exact hnext.trans hcandidate
  · exact absurd hconstrained hfree

/-- A turn the other way asks for more than the cap, and unwinds the integrator. -/
theorem anti_windup_gust :
    ∃ shaped g' left right,
      glideUpdate gustGlide 0.1 0 1.2 true 0.02 = some (g', left, right) ∧
      shaped.cfg.correctionMax < |rawCorrection shaped 1.2 0.02| ∧
      AntiWindup gustGlide shaped 1.2 0.02 g' ∧ g'.integrator ∈ Set.uIcc 0 0.015 := by
  obtain ⟨hstraight, hI⟩ := straight_gust
  obtain ⟨shaped, g', left, right, hshape, hshaped, hI', -, -, hclosed, hupdate, -⟩ :=
    hstraight.update 1.2 (by norm_num : (0.1 : ℝ) ≠ 0) (by norm_num : (0 : ℝ) < 0.02)
      (by norm_num)
  rw [hI] at hI'
  have herror : yawError shaped 1.2 = -1.2 := hshaped.error (by norm_num [abs_of_pos])
  have hstep : integralStep shaped 1.2 0.02 = -0.0072 := by
    rw [integralStep, herror, hshaped.cfg]
    show (0.3 : ℝ) * (-1.2) * 0.02 = -0.0072
    norm_num
  have hraw : rawCorrection shaped 1.2 0.02 = -0.5922 := by
    rw [rawCorrection, integratorCandidate, hstep, herror, hI', hshaped.cfg]
    show (0.5 : ℝ) * (-1.2) + clamp ((0.015 : ℝ) + -0.0072) 0.5 = -0.5922
    rw [clamp_of_abs_le (by norm_num [abs_of_pos])]
    norm_num
  have hcap : shaped.cfg.correctionMax < |rawCorrection shaped 1.2 0.02| := by
    rw [hraw, hshaped.cfg]
    show (0.5 : ℝ) < |-0.5922|
    norm_num [abs_of_neg]
  have hwindup : AntiWindup gustGlide shaped 1.2 0.02 g' := by
    refine (anti_windup_iff (glideInit_eq_some_iff.mpr ⟨glideTestConfig_accepted, rfl⟩)
      [.update 0.1 0 (-0.5) true 0.1] hshape hclosed hupdate).mpr ⟨?_, ?_⟩
    · intro _ _
      rw [hstep, hI']
      norm_num [abs_of_pos, abs_of_neg]
    · intro hwith
      rw [hI', herror] at hwith
      norm_num at hwith
  have hunwound := hwindup (.inr (.inl hcap))
  rw [hI] at hunwound
  exact ⟨shaped, g', left, right, hupdate, hcap, hwindup, hunwound⟩

/-- A gust one way, a harder one the other way: the unwinding integrator passes zero and
ends up nineteen times as large. -/
theorem integrator_overshoots :
    let g := glideMachine.run (glideAtRest glideTestConfig) [.update 0.1 0 (-0.5) true 0.1]
    ∃ shaped g' left right,
      glideShape g 0.1 0 true 0.1 = some shaped ∧
      (glideCoasts shaped 0.1 0 || !shaped.cfg.yawFeedback) = false ∧
      glideUpdate g 0.1 0 10 true 0.1 = some (g', left, right) ∧
      ¬AntiWindup g shaped 10 0.1 g' ∧ g.integrator = 0.015 ∧ g'.integrator = -0.285 := by
  intro g
  have hvx : (0.1 : ℝ) ≠ 0 := by norm_num
  have hdt : (0 : ℝ) < 0.1 := by norm_num
  obtain ⟨hstraight, hI⟩ : Straight g ∧ g.integrator = 0.015 := straight_gust
  -- the second gust is integrated because it is against the first
  obtain ⟨shaped, g', left, right, hshape, hshaped, hI', -, -, hclosed, hupdate, hloop, -⟩ :=
    hstraight.update 10 hvx hdt (le_refl 0.1)
  rw [hI] at hI'
  have herror : yawError shaped 10 = -10 := hshaped.error (by norm_num [abs_of_pos])
  have hcandidate : integratorCandidate shaped 10 0.1 = -0.285 := by
    rw [integratorCandidate, integralStep, herror, hI', hshaped.cfg]
    show clamp ((0.015 : ℝ) + 0.3 * (-10) * 0.1) 0.5 = -0.285
    have hsum : (0.015 : ℝ) + 0.3 * (-10) * 0.1 = -0.285 := by norm_num
    rw [hsum, clamp_of_abs_le (by norm_num [abs_of_pos])]
  have hraw : rawCorrection shaped 10 0.1 = -5.285 := by
    rw [rawCorrection, hcandidate, herror, hshaped.cfg]
    show (0.5 : ℝ) * (-10) + -0.285 = -5.285
    norm_num
  have hnew : g'.integrator = -0.285 := by
    obtain ⟨profile, -, hout⟩ := glideClosedLoop_some hloop
    have hnew : g'.integrator = nextIntegrator shaped 10 0.1 :=
      congrArg (fun out => out.1.integrator) hout
    rw [hnew]
    rcases nextIntegrator_cases shaped 10 0.1 with ⟨hnext, -⟩ | ⟨-, -, hwith⟩
    · exact hnext.trans hcandidate
    · rw [hI', herror] at hwith
      norm_num at hwith
  refine ⟨shaped, g', left, right, hshape, hclosed, hupdate, ?_, hI, hnew⟩
  intro hwindup
  have hcap : shaped.cfg.correctionMax < |rawCorrection shaped 10 0.1| := by
    rw [hraw, hshaped.cfg]
    show (0.5 : ℝ) < |-5.285|
    norm_num [abs_of_pos]
  have hbetween := hwindup (.inr (.inl hcap))
  rw [hI, hnew, Set.uIcc_of_le (by norm_num)] at hbetween
  norm_num at hbetween
