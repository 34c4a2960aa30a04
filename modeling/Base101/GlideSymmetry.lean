/-
Left and right, forward and backward (`glide.c`), over the reals.

`Glide.image` is the controller seen in a mirror: turning the other way, and, seen from
behind as well, driving the other way.  Every part of an update is equivariant, so the
image of a run is the run under the image of its commands.

* `glideUpdate_image` — one update;
* `glide_symmetry` — whole runs: the turn mirrored exchanges the wheels, the whole
  command reversed negates them.
-/
import Base101.GlideGyro

open Double

/-! ### The profile -/

section Profile

variable {p : MotionProfile ℝ} {t A J dt : ℝ}

@[simp] theorem mirror_zero : (MotionProfile.zero : MotionProfile ℝ).mirror = .zero := by
  simp [MotionProfile.mirror, MotionProfile.zero]

theorem motionProfileLoop_mirror (hA : 0 ≤ A) (hJ : 0 ≤ J) (hdt : 0 < dt) (i : ℕ) :
    motionProfileLoop (-t) A J dt i p.mirror = (motionProfileLoop t A J dt i p).mirror := by
  have hJh : 0 ≤ J * (dt / (motionProfileSteps dt : ℝ)) :=
    mul_nonneg hJ (motionProfileSteps_bounds hdt).1.le
  induction i with
  | zero => rfl
  | succ i ih =>
    rw [motionProfileLoop_succ, motionProfileLoop_succ, ih, motionProfileSubstep_mirror hA hJh]

theorem motionProfileStep_mirror (hA : 0 < A) (hJ : 0 < J) (hdt : 0 < dt) :
    motionProfileStep p.mirror (-t) A J dt =
      (motionProfileStep p t A J dt).map MotionProfile.mirror := by
  have habs : fabs p.mirror.acceleration = fabs p.acceleration := by
    rw [fabs_exact, fabs_exact]
    exact abs_neg _
  rw [motionProfileStep, motionProfileStep, habs, motionProfileLoop_mirror hA.le hJ.le hdt]
  simp only [isfinite_exact]
  split
  · rfl
  · rfl

end Profile

/-! ### The image of a controller -/

/-- The mirror image of a profile, or the profile. -/
noncomputable def MotionProfile.facing (back : Bool) (p : MotionProfile ℝ) : MotionProfile ℝ :=
  if back then p.mirror else p

/-- A command seen the same way. -/
noncomputable def facing (back : Bool) (x : ℝ) : ℝ := if back then -x else x

/-- The controller that turns the other way, and drives the other way if seen from
behind. -/
noncomputable def Glide.image (back : Bool) (g : Glide ℝ) : Glide ℝ :=
  { g with
    linear := g.linear.facing back
    yaw := g.yaw.mirror
    correctionProfile := g.correctionProfile.mirror
    integrator := -g.integrator
    correction := -g.correction }

/-- The rates of the two sides: exchanged in front, negated from behind. -/
noncomputable def ratesImage (back : Bool) (rates : ℝ × ℝ) : ℝ × ℝ :=
  if back then (-rates.1, -rates.2) else (rates.2, rates.1)

/-- What an update returns, seen the same way. -/
noncomputable def outImage (back : Bool) (out : Glide ℝ × ℝ × ℝ) : Glide ℝ × ℝ × ℝ :=
  (out.1.image back, ratesImage back out.2)

section Image

variable {g : Glide ℝ} {back : Bool} {vx wz gyroZ dt x : ℝ} {trackingGood : Bool}

@[simp] theorem image_cfg : (g.image back).cfg = g.cfg := rfl

theorem facing_abs : |facing back x| = |x| := by
  cases back
  · rfl
  · exact abs_neg x

theorem clamp_facing {limit : ℝ} (h : 0 ≤ limit) :
    clamp (facing back x) limit = facing back (clamp x limit) := by
  cases back
  · rfl
  · exact clamp_neg h

theorem motionProfileStep_facing {p : MotionProfile ℝ} {t A J : ℝ} (hA : 0 < A) (hJ : 0 < J)
    (hdt : 0 < dt) :
    motionProfileStep (p.facing back) (facing back t) A J dt =
      (motionProfileStep p t A J dt).map (MotionProfile.facing back) := by
  cases back
  · show motionProfileStep p t A J dt = (motionProfileStep p t A J dt).map id
    rw [Option.map_id]
    rfl
  · exact motionProfileStep_mirror hA hJ hdt

theorem facing_zero : (MotionProfile.zero : MotionProfile ℝ).facing back = .zero := by
  rw [MotionProfile.facing, mirror_zero]
  exact ite_self _

/-- The controller at rest is its own image. -/
theorem image_atRest (cfg : GlideConfig ℝ) : (glideAtRest cfg).image back = glideAtRest cfg := by
  rw [Glide.image, glideAtRest]
  simp only [facing_zero, mirror_zero, neg_zero]

/-- The unsaturated rates of the image. -/
theorem glideWheelRates_image (correction : ℝ) :
    glideWheelRates (g.image back) (-correction) =
      ratesImage back (glideWheelRates g correction) := by
  rw [glideWheelRates, glideWheelRates]
  cases back
  · show ((g.linear.velocity - (-g.yaw.velocity + -correction) * g.cfg.icr * g.cfg.separation *
      0.5) / g.cfg.radius, _) = _
    refine Prod.ext ?_ ?_
    · show _ = (g.linear.velocity + _) / g.cfg.radius
      ring
    · show (g.linear.velocity + (-g.yaw.velocity + -correction) * g.cfg.icr * g.cfg.separation *
        0.5) / g.cfg.radius = (g.linear.velocity - _) / g.cfg.radius
      congr 1
      ring
  · show ((-g.linear.velocity - (-g.yaw.velocity + -correction) * g.cfg.icr * g.cfg.separation *
      0.5) / g.cfg.radius, _) = _
    refine Prod.ext ?_ ?_
    · show _ = -((g.linear.velocity - _) / g.cfg.radius)
      rw [← neg_div]
      ring
    · show (-g.linear.velocity + (-g.yaw.velocity + -correction) * g.cfg.icr * g.cfg.separation *
        0.5) / g.cfg.radius = -((g.linear.velocity + _) / g.cfg.radius)
      rw [← neg_div]
      congr 1
      ring

/-- The allocation scales the two rates by the cap over their peak. -/
theorem glideAllocate_rates (g : Glide ℝ) (correction : ℝ) :
    let rates := glideWheelRates g correction
    let peak := max |rates.1| |rates.2|
    glideAllocate g correction =
      if g.cfg.wheelMax < peak then
        (rates.1 * (g.cfg.wheelMax / peak), rates.2 * (g.cfg.wheelMax / peak), true)
      else (rates.1, rates.2, false) := rfl

theorem ratesImage_peak (rates : ℝ × ℝ) :
    max |(ratesImage back rates).1| |(ratesImage back rates).2| = max |rates.1| |rates.2| := by
  cases back
  · exact max_comm _ _
  · show max |-rates.1| |-rates.2| = _
    rw [abs_neg, abs_neg]

/-- The allocation of the image: the peak and so the scale are the same. -/
theorem glideAllocate_image (back : Bool) (g : Glide ℝ) (correction : ℝ) :
    (glideAllocate (g.image back) (-correction)).2.2 = (glideAllocate g correction).2.2 ∧
    ((glideAllocate (g.image back) (-correction)).1,
        (glideAllocate (g.image back) (-correction)).2.1) =
      ratesImage back ((glideAllocate g correction).1, (glideAllocate g correction).2.1) := by
  rw [glideAllocate_rates, glideAllocate_rates, glideWheelRates_image, ratesImage_peak, image_cfg]
  by_cases hpeak : g.cfg.wheelMax <
      max |(glideWheelRates g correction).1| |(glideWheelRates g correction).2|
  · rw [if_pos hpeak, if_pos hpeak]
    refine ⟨rfl, ?_⟩
    cases back
    · rfl
    · show (-_ * _, -_ * _) = (-(_ * _), -(_ * _))
      rw [neg_mul, neg_mul]
  · rw [if_neg hpeak, if_neg hpeak]
    exact ⟨rfl, rfl⟩

/-- The end of an update of the image. -/
theorem glideFinish_image (hcap : 0 ≤ g.cfg.correctionMax) :
    glideFinish (g.image back) = outImage back (glideFinish g) := by
  set correction := clamp g.correctionProfile.velocity g.cfg.correctionMax with hcorrection
  have hclamp : clamp (g.image back).correctionProfile.velocity (g.image back).cfg.correctionMax =
      -correction := clamp_neg hcap
  set corrected : Glide ℝ := { g with correction } with hcorrected
  obtain ⟨hsaturated, hrates⟩ := glideAllocate_image back corrected correction
  have hfinish : glideFinish (g.image back) =
      ({ corrected.image back with
          saturated := (glideAllocate (corrected.image back) (-correction)).2.2 },
        (glideAllocate (corrected.image back) (-correction)).1,
        (glideAllocate (corrected.image back) (-correction)).2.1) := by
    rw [glideFinish, hclamp]
    rfl
  rw [hfinish, hrates, hsaturated]
  rfl

/-- The controller the open loop finishes. -/
theorem glideFaded_image (coast : Bool) (profile : MotionProfile ℝ) :
    glideFaded (g.image back) coast profile.mirror = (glideFaded g coast profile).image back := by
  have hlinear : (if coast then MotionProfile.zero else g.linear.facing back) =
      (if coast then MotionProfile.zero else g.linear).facing back := by
    cases coast
    · rfl
    · exact facing_zero.symm
  have hyaw : (if coast then MotionProfile.zero else g.yaw.mirror) =
      (if coast then MotionProfile.zero else g.yaw).mirror := by
    cases coast
    · rfl
    · exact mirror_zero.symm
  -- the thresholds are on the magnitudes
  have hprofile : (if fabs profile.mirror.velocity < 1e-4 &&
        fabs profile.mirror.acceleration < 1e-3 then MotionProfile.zero else profile.mirror) =
      (if fabs profile.velocity < 1e-4 && fabs profile.acceleration < 1e-3 then
        MotionProfile.zero else profile).mirror := by
    have hv : fabs profile.mirror.velocity = fabs profile.velocity := abs_neg profile.velocity
    have ha : fabs profile.mirror.acceleration = fabs profile.acceleration :=
      abs_neg profile.acceleration
    rw [hv, ha, apply_ite MotionProfile.mirror, mirror_zero]
  show ({ g.image back with
    linear := if coast then MotionProfile.zero else g.linear.facing back
    yaw := if coast then MotionProfile.zero else g.yaw.mirror
    correctionProfile := if fabs profile.mirror.velocity < 1e-4 &&
      fabs profile.mirror.acceleration < 1e-3 then MotionProfile.zero else profile.mirror
    integrator := 0 } : Glide ℝ) = _
  rw [hlinear, hyaw, hprofile, Glide.image, glideFaded]
  simp only [Glide.image, neg_zero]

/-- The open loop. -/
theorem glideOpenLoop_image (coast : Bool) (hcfg : g.cfg.Accepted) (hdt : 0 < dt) :
    glideOpenLoop (g.image back) coast dt = (glideOpenLoop g coast dt).map (outImage back) := by
  have hstep : motionProfileStep (g.image back).correctionProfile 0
      (g.image back).cfg.correctionAccel (g.image back).cfg.correctionJerk dt =
        (motionProfileStep g.correctionProfile 0 g.cfg.correctionAccel g.cfg.correctionJerk dt).map
          MotionProfile.mirror := by
    have hmirror := motionProfileStep_mirror (p := g.correctionProfile) (J := g.cfg.correctionJerk)
      (A := g.cfg.correctionAccel) (t := 0) hcfg.correctionAccel hcfg.correctionJerk hdt
    rwa [neg_zero] at hmirror
  rw [glideOpenLoop_eq, glideOpenLoop_eq, hstep]
  cases motionProfileStep g.correctionProfile 0 g.cfg.correctionAccel g.cfg.correctionJerk dt with
  | none => rfl
  | some profile =>
    show some (glideFinish (glideFaded (g.image back) coast profile.mirror)) =
      some (outImage back (glideFinish (glideFaded g coast profile)))
    rw [← glideFinish_image (show 0 ≤ (glideFaded g coast profile).cfg.correctionMax from
      hcfg.correctionMax), glideFaded_image]

/-- What the closed loop computes from the error is odd. -/
theorem yawError_image : yawError (g.image back) (-gyroZ) = -yawError g gyroZ := by
  have hsub : (g.image back).yaw.velocity - -gyroZ = -(g.yaw.velocity - gyroZ) := by
    show -g.yaw.velocity - -gyroZ = _
    ring
  rw [yawError, hsub, abs_neg, image_cfg, yawError]
  split
  · exact neg_zero.symm
  · rfl

theorem integratorCandidate_image (hcap : 0 ≤ g.cfg.correctionMax) :
    integratorCandidate (g.image back) (-gyroZ) dt = -integratorCandidate g gyroZ dt := by
  rw [integratorCandidate, integralStep, yawError_image, image_cfg, integratorCandidate,
    integralStep, ← clamp_neg hcap]
  congr 1
  show -g.integrator + _ = _
  ring

theorem rawCorrection_image (hcap : 0 ≤ g.cfg.correctionMax) :
    rawCorrection (g.image back) (-gyroZ) dt = -rawCorrection g gyroZ dt := by
  rw [rawCorrection, yawError_image, integratorCandidate_image hcap, image_cfg, rawCorrection]
  ring

theorem nextIntegrator_image (hcap : 0 ≤ g.cfg.correctionMax) :
    nextIntegrator (g.image back) (-gyroZ) dt = -nextIntegrator g gyroZ dt := by
  have hproduct : (g.image back).integrator * -yawError g gyroZ =
      g.integrator * yawError g gyroZ := neg_mul_neg _ _
  have htracking : (g.image back).trackingBadS = g.trackingBadS := rfl
  rw [nextIntegrator, rawCorrection_image hcap, image_cfg, clamp_neg hcap,
    (glideAllocate_image back g _).1, abs_neg, htracking, yawError_image, hproduct,
    integratorCandidate_image hcap, nextIntegrator, apply_ite Neg.neg]
  rfl

/-- The closed loop. -/
theorem glideClosedLoop_image (hcfg : g.cfg.Accepted) (hdt : 0 < dt) :
    glideClosedLoop (g.image back) (-gyroZ) dt =
      (glideClosedLoop g gyroZ dt).map (outImage back) := by
  have hdesired : clamp ((g.image back).cfg.yawKp * yawError (g.image back) (-gyroZ) +
        nextIntegrator (g.image back) (-gyroZ) dt) (g.image back).cfg.correctionMax =
      -clamp (g.cfg.yawKp * yawError g gyroZ + nextIntegrator g gyroZ dt) g.cfg.correctionMax := by
    rw [yawError_image, nextIntegrator_image hcfg.correctionMax, image_cfg,
      ← clamp_neg hcfg.correctionMax]
    congr 1
    ring
  rw [glideClosedLoop_next, glideClosedLoop_next, hdesired]
  show (motionProfileStep g.correctionProfile.mirror _ g.cfg.correctionAccel g.cfg.correctionJerk
    dt).bind _ = _
  rw [motionProfileStep_mirror hcfg.correctionAccel hcfg.correctionJerk hdt,
    nextIntegrator_image hcfg.correctionMax]
  cases motionProfileStep g.correctionProfile
    (clamp (g.cfg.yawKp * yawError g gyroZ + nextIntegrator g gyroZ dt) g.cfg.correctionMax)
    g.cfg.correctionAccel g.cfg.correctionJerk dt with
  | none => rfl
  | some profile =>
    exact congrArg some (glideFinish_image (g := { g with
      integrator := nextIntegrator g gyroZ dt
      correctionProfile := profile }) hcfg.correctionMax)

/-- The shaping. -/
theorem glideShape_image (hcfg : g.cfg.Accepted) (hdt : 0 < dt) :
    glideShape (g.image back) (facing back vx) (-wz) trackingGood dt =
      (glideShape g vx wz trackingGood dt).map (Glide.image back) := by
  rw [glideShape, glideShape, image_cfg, clamp_facing hcfg.vxMax.le, clamp_neg hcfg.wzMax.le]
  show (motionProfileStep (g.linear.facing back) _ _ _ dt >>= fun linear =>
    motionProfileStep g.yaw.mirror _ _ _ dt >>= fun yaw => _) = _
  rw [motionProfileStep_facing hcfg.axMax hcfg.jxMax hdt,
    motionProfileStep_mirror hcfg.alphaMax hcfg.jalphaMax hdt]
  cases motionProfileStep g.linear (clamp vx g.cfg.vxMax) g.cfg.axMax g.cfg.jxMax dt with
  | none => rfl
  | some linear =>
    cases motionProfileStep g.yaw (clamp wz g.cfg.wzMax) g.cfg.alphaMax g.cfg.jalphaMax dt with
    | none => rfl
    | some yaw => rfl

theorem glideCoasts_image :
    glideCoasts (g.image back) (facing back vx) (-wz) = glideCoasts g vx wz := by
  have hvx : facing back vx = 0 ↔ vx = 0 := by
    rw [← abs_eq_zero, facing_abs, abs_eq_zero]
  have hlinear : |(g.image back).linear.velocity| = |g.linear.velocity| ∧
      |(g.image back).linear.acceleration| = |g.linear.acceleration| := by
    cases back
    · exact ⟨rfl, rfl⟩
    · exact ⟨abs_neg _, abs_neg _⟩
  have hyaw : |(g.image back).yaw.velocity| = |g.yaw.velocity| ∧
      |(g.image back).yaw.acceleration| = |g.yaw.acceleration| := ⟨abs_neg _, abs_neg _⟩
  rw [Bool.eq_iff_iff, glideCoasts_iff, glideCoasts_iff, hvx, neg_eq_zero, Settles, Settles,
    hlinear.1, hlinear.2, hyaw.1, hyaw.2]

/-- An update of the image is the image of the update. -/
theorem glideUpdate_image (hcfg : g.cfg.Accepted) :
    glideUpdate (g.image back) (facing back vx) (-wz) (-gyroZ) trackingGood dt =
      (glideUpdate g vx wz gyroZ trackingGood dt).map (outImage back) := by
  by_cases hdt : 0 < dt ∧ dt ≤ 0.1
  · rw [glideUpdate_eq _ _ _ _ _ hdt.1 hdt.2, glideUpdate_eq _ _ _ _ _ hdt.1 hdt.2,
      glideShape_image hcfg hdt.1]
    cases hshape : glideShape g vx wz trackingGood dt with
    | none => rfl
    | some shaped =>
      have hshaped : shaped.cfg.Accepted := by
        rw [glideShape_cfg hshape]
        exact hcfg
      show (if glideCoasts (shaped.image back) (facing back vx) (-wz) ||
            !shaped.cfg.yawFeedback then
          glideOpenLoop (shaped.image back)
            (glideCoasts (shaped.image back) (facing back vx) (-wz)) dt
        else glideClosedLoop (shaped.image back) (-gyroZ) dt) =
        (if glideCoasts shaped vx wz || !shaped.cfg.yawFeedback then
          glideOpenLoop shaped (glideCoasts shaped vx wz) dt
        else glideClosedLoop shaped gyroZ dt).map (outImage back)
      rw [glideCoasts_image]
      split
      · exact glideOpenLoop_image _ hshaped hdt.1
      · exact glideClosedLoop_image hshaped hdt.1
  · rw [glideUpdate_eq_none hdt, glideUpdate_eq_none hdt]
    rfl

end Image

/-! ### Whole runs -/

/-- The call with the turn mirrored, and with the whole command if seen from behind. -/
noncomputable def GlideCall.image (back : Bool) (call : GlideCall) : GlideCall :=
  { call with vx := facing back call.vx, wz := -call.wz, gyroZ := -call.gyroZ }

/-- The image of a run is the run of the image. -/
theorem glideResponses_image {g : Glide ℝ} (hcfg : g.cfg.Accepted) (back : Bool)
    (calls : List GlideCall) :
    List.Forall₂ (Option.Rel fun out out' => out' = outImage back out) (glideResponses g calls)
      (glideResponses (g.image back) (calls.map (GlideCall.image back))) := by
  have hcalls : List.Forall₂ (fun call call' => call' = GlideCall.image back call) calls
      (calls.map (GlideCall.image back)) := by
    rw [List.forall₂_map_right_iff, List.forall₂_same]
    exact fun _ _ => rfl
  -- the configuration stays the accepted one
  have hrun : List.Forall₂
      (Option.Rel fun out out' => out' = outImage back out ∧ out.1.cfg.Accepted)
      (glideResponses g calls)
      (glideResponses (g.image back) (calls.map (GlideCall.image back))) := by
    refine responses_related (R := fun g g' => g' = g.image back ∧ g.cfg.Accepted) ?_ ?_
      ⟨rfl, hcfg⟩ hcalls
    · rintro g _ call _ ⟨rfl, hcfg⟩ rfl
      have himage : glideCall (g.image back) (call.image back) =
          (glideCall g call).map (outImage back) := glideUpdate_image hcfg
      rw [himage]
      cases hcall : glideCall g call with
      | none => exact .none
      | some out =>
        refine .some ⟨rfl, ?_⟩
        rw [glideUpdate_cfg hcall]
        exact hcfg
    · rintro out _ ⟨rfl, hout⟩
      exact ⟨rfl, hout⟩
  refine hrun.imp fun r r' hrel => ?_
  cases hrel with
  | none => exact .none
  | some hout => exact .some hout.1

/-- The same flag, with the two sides exchanged. -/
structure SidesExchanged (out out' : Glide ℝ × ℝ × ℝ) : Prop where
  saturated : out'.1.saturated = out.1.saturated
  left : out'.2.1 = out.2.2
  right : out'.2.2 = out.2.1

/-- The same flag, with both sides negated. -/
structure SidesNegated (out out' : Glide ℝ × ℝ × ℝ) : Prop where
  saturated : out'.1.saturated = out.1.saturated
  left : out'.2.1 = -out.2.1
  right : out'.2.2 = -out.2.2

/-- **The controller is symmetric.**  From any accepted configuration, mirroring the
turn and the gyro exchanges the sides after every call, and reversing the whole command
negates them; the refused calls and the saturated ones are the same. -/
theorem glide_symmetry {cfg : GlideConfig ℝ} {g₀ : Glide ℝ} (hinit : glideInit cfg = some g₀)
    (calls : List GlideCall) :
    List.Forall₂ (Option.Rel SidesExchanged) (glideResponses g₀ calls)
        (glideResponses g₀ (calls.map fun call =>
          { call with wz := -call.wz, gyroZ := -call.gyroZ })) ∧
      List.Forall₂ (Option.Rel SidesNegated) (glideResponses g₀ calls)
        (glideResponses g₀ (calls.map fun call =>
          { call with vx := -call.vx, wz := -call.wz, gyroZ := -call.gyroZ })) := by
  obtain ⟨hcfg, rfl⟩ := glideInit_eq_some_iff.mp hinit
  have hrun : ∀ back, List.Forall₂ (Option.Rel fun out out' => out' = outImage back out)
      (glideResponses (glideAtRest cfg) calls)
      (glideResponses (glideAtRest cfg) (calls.map (GlideCall.image back))) := by
    intro back
    have himage := glideResponses_image (g := glideAtRest cfg) hcfg back calls
    rwa [image_atRest] at himage
  constructor
  · refine (hrun false).imp fun r r' hrel => ?_
    cases hrel with
    | none => exact .none
    | some hout =>
      rw [hout]
      exact .some ⟨rfl, rfl, rfl⟩
  · refine (hrun true).imp fun r r' hrel => ?_
    cases hrel with
    | none => exact .none
    | some hout =>
      rw [hout]
      exact .some ⟨rfl, rfl, rfl⟩

/-- A turn with the gyro lagging. -/
theorem glide_symmetry_turn :
    List.Forall₂ (Option.Rel SidesExchanged)
      (glideResponses (glideAtRest glideTestConfig)
        [⟨0.2, 0.6, 0, true, 0.02⟩, ⟨0.2, 0.6, 0.1, true, 0.02⟩])
      (glideResponses (glideAtRest glideTestConfig)
        [⟨0.2, -0.6, -0, true, 0.02⟩, ⟨0.2, -0.6, -0.1, true, 0.02⟩]) :=
  (glide_symmetry (glideInit_eq_some_iff.mpr ⟨glideTestConfig_accepted, rfl⟩)
    [⟨0.2, 0.6, 0, true, 0.02⟩, ⟨0.2, 0.6, 0.1, true, 0.02⟩]).1
