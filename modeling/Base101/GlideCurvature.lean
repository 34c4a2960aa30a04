/-
Stopping out of a turn (`glide.c` without yaw closure), over the reals.

The linear and the yaw velocity are shaped by profiles of their own, so a turn keeps
its curvature on the way to rest only where the two unit profiles of `StopProfile`
agree: where both jerk limits, and both acceleration limits as far as they are
reached, are in the proportion of the two velocities.

* `glideUpdate_stop` — one update under the command zero;
* `stopKeeps_of_axes` — the run lemma, for any relation the substeps keep;
* `turn_to_stop_iff` — a settled turn keeps its curvature to rest exactly when
  `KeepsCurvature` holds;
* `turn_to_stop_lost` — the configuration of the host test loses it.
-/
import Base101.StopProfile

open Double

/-! ### One update under the command zero -/

theorem glideCoasts_zero (g : Glide ℝ) :
    glideCoasts g 0 0 = true ↔ Settles g.linear g.yaw := by
  rw [glideCoasts_iff]
  simp

section Zero

variable {A J h dt : ℝ}

/-- A profile at rest stays at rest. -/
theorem substep_rest (hA : 0 ≤ A) (hJh : 0 ≤ J * h) :
    motionProfileSubstep 0 A J h MotionProfile.zero = MotionProfile.zero := by
  have hacc : (motionProfileSubstep 0 A J h MotionProfile.zero).acceleration = 0 := by
    rw [stop_acceleration hA (le_refl 0)]
    simp [MotionProfile.zero, approach, hA, hJh]
  refine MotionProfile.ext ?_ hacc
  rw [substep_velocity, hacc]
  simp [MotionProfile.zero]

theorem motionProfileLoop_rest (hA : 0 ≤ A) (hJ : 0 ≤ J) (hdt : 0 < dt) (i : ℕ) :
    motionProfileLoop 0 A J dt i MotionProfile.zero = MotionProfile.zero := by
  have hJh : 0 ≤ J * (dt / (motionProfileSteps dt : ℝ)) :=
    mul_nonneg hJ (motionProfileSteps_bounds hdt).1.le
  induction i with
  | zero => rfl
  | succ i ih =>
    rw [motionProfileLoop] at ih ⊢
    rw [Function.iterate_succ_apply', ih]
    exact substep_rest hA hJh

end Zero

section Update

variable {g : Glide ℝ} {gyroZ dt : ℝ} {trackingGood : Bool}

/-- What the controller looks like on the way to rest. -/
structure OpenLoop (g : Glide ℝ) : Prop where
  accepted : g.cfg.Accepted
  feedback : g.cfg.yawFeedback = false
  correctionProfile : g.correctionProfile = MotionProfile.zero

/-- Under the command zero both profiles are stepped toward zero, and dropped once
both have settled. -/
theorem glideUpdate_stop (gyroZ : ℝ) (trackingGood : Bool) (hg : OpenLoop g)
    (hlin : |g.linear.acceleration| ≤ g.cfg.axMax)
    (hyaw : |g.yaw.acceleration| ≤ g.cfg.alphaMax) (hdt : 0 < dt) (hdt' : dt ≤ 0.1) :
    let p := motionProfileLoop 0 g.cfg.axMax g.cfg.jxMax dt (motionProfileSteps dt) g.linear
    let q := motionProfileLoop 0 g.cfg.alphaMax g.cfg.jalphaMax dt (motionProfileSteps dt) g.yaw
    ∃ g', glideUpdate g 0 0 gyroZ trackingGood dt = some (glideFinish g') ∧ OpenLoop g' ∧
      g'.cfg = g.cfg ∧
      ((Settles p q ∧ g'.linear = MotionProfile.zero ∧ g'.yaw = MotionProfile.zero) ∨
        (¬ Settles p q ∧ g'.linear = p ∧ g'.yaw = q)) := by
  intro p q
  obtain ⟨hcfg, hfeedback, hcorrection⟩ := hg
  have hclamp : ∀ {x : ℝ}, 0 < x → clamp 0 x = 0 := by
    intro x hx
    exact clamp_of_abs_le (by simpa using hx.le)
  set shaped : Glide ℝ := { g with
    linear := p, yaw := q
    trackingBadS := if trackingGood then 0 else g.trackingBadS + dt } with hshaped
  have hshape : glideShape g 0 0 trackingGood dt = some shaped := by
    rw [glideShape, hclamp hcfg.vxMax, hclamp hcfg.wzMax,
      motionProfileStep_eq_some hcfg.axMax hcfg.jxMax hdt hdt' hlin,
      motionProfileStep_eq_some hcfg.alphaMax hcfg.jalphaMax hdt hdt' hyaw]
    rfl
  have hrest : motionProfileStep shaped.correctionProfile 0 shaped.cfg.correctionAccel
      shaped.cfg.correctionJerk dt = some MotionProfile.zero := by
    rw [show shaped.correctionProfile = MotionProfile.zero from hcorrection,
      motionProfileStep_eq_some hcfg.correctionAccel hcfg.correctionJerk hdt hdt'
        (by simpa [MotionProfile.zero] using hcfg.correctionAccel.le),
      motionProfileLoop_rest hcfg.correctionAccel.le hcfg.correctionJerk.le hdt]
  refine ⟨glideFaded shaped (glideCoasts shaped 0 0) MotionProfile.zero, ?_, ?_, rfl, ?_⟩
  · rw [glideUpdate_eq g 0 0 gyroZ trackingGood hdt hdt', hshape, Option.bind_some,
      if_pos (by simp [hshaped, hfeedback]), glideOpenLoop_eq, hrest]
    rfl
  · refine ⟨hcfg, hfeedback, ?_⟩
    show ite _ MotionProfile.zero MotionProfile.zero = MotionProfile.zero
    exact ite_self _
  · by_cases hcoast : glideCoasts shaped 0 0 = true
    · left
      refine ⟨(glideCoasts_zero shaped).mp hcoast, ?_, ?_⟩
      · exact if_pos hcoast
      · exact if_pos hcoast
    · right
      refine ⟨fun h => hcoast ((glideCoasts_zero shaped).mpr h), ?_, ?_⟩
      · exact if_neg hcoast
      · exact if_neg hcoast

end Update

/-! ### The ratio of the two sides -/

/-- The unsaturated rates of the two sides at the body velocity `(v, w)`. -/
noncomputable def turnRates (cfg : GlideConfig ℝ) (v w : ℝ) : ℝ × ℝ :=
  ((v - w * cfg.icr * cfg.separation * 0.5) / cfg.radius,
    (v + w * cfg.icr * cfg.separation * 0.5) / cfg.radius)

/-- The sides are in the ratio of a turn exactly when the body velocities are. -/
theorem glideFinish_ratio {g : Glide ℝ} (hg : OpenLoop g) (V W : ℝ) :
    (glideFinish g).2.1 * (turnRates g.cfg V W).2 =
        (glideFinish g).2.2 * (turnRates g.cfg V W).1 ↔
      g.linear.velocity * W = g.yaw.velocity * V := by
  obtain ⟨hcfg, -, hcorrection⟩ := hg
  have hclamp : clamp g.correctionProfile.velocity g.cfg.correctionMax = 0 := by
    rw [hcorrection]
    exact clamp_of_abs_le (by simpa [MotionProfile.zero] using hcfg.correctionMax)
  obtain ⟨scale, hscale, -, -, hleft, hright, -, -⟩ :=
    glideAllocate_scaled (g := { g with
      correction := clamp g.correctionProfile.velocity g.cfg.correctionMax })
      hcfg.wheelMax (clamp g.correctionProfile.velocity g.cfg.correctionMax)
  have hl : (glideFinish g).2.1 = scale *
      (turnRates g.cfg g.linear.velocity g.yaw.velocity).1 := by
    refine hleft.trans ?_
    simp only [glideWheelRates, turnRates, hclamp, add_zero]
  have hr : (glideFinish g).2.2 = scale *
      (turnRates g.cfg g.linear.velocity g.yaw.velocity).2 := by
    refine hright.trans ?_
    simp only [glideWheelRates, turnRates, hclamp, add_zero]
  have hradius := hcfg.radius
  have hturn : 0 < g.cfg.icr * g.cfg.separation := mul_pos hcfg.icr hcfg.separation
  rw [hl, hr]
  simp only [turnRates]
  set v := g.linear.velocity
  set w := g.yaw.velocity
  -- both products share the factor below, and differ by the cross product
  have hcross : scale * ((v - w * g.cfg.icr * g.cfg.separation * 0.5) / g.cfg.radius) *
        ((V + W * g.cfg.icr * g.cfg.separation * 0.5) / g.cfg.radius) -
      scale * ((v + w * g.cfg.icr * g.cfg.separation * 0.5) / g.cfg.radius) *
        ((V - W * g.cfg.icr * g.cfg.separation * 0.5) / g.cfg.radius) =
      scale * (g.cfg.icr * g.cfg.separation) / g.cfg.radius ^ 2 * (v * W - w * V) := by
    field_simp
    norm_num
    ring
  have hfactor : scale * (g.cfg.icr * g.cfg.separation) / g.cfg.radius ^ 2 ≠ 0 := by positivity
  constructor
  · intro heq
    rw [heq, sub_self, eq_comm, mul_eq_zero] at hcross
    linarith [hcross.resolve_left hfactor]
  · intro heq
    rw [heq, sub_self, mul_zero] at hcross
    linarith

/-! ### Runs under the command zero -/

/-- A call under the command zero: the gyro, the tracking flag and the time step. -/
structure StopCall where
  gyroZ : ℝ
  trackingGood : Bool
  dt : ℝ

/-- Every update of the run succeeds, with outputs that satisfy `P`. -/
def StopKeeps (P : ℝ → ℝ → Prop) : Glide ℝ → List StopCall → Prop
  | _, [] => True
  | g, c :: calls => ∃ g' left right,
      glideUpdate g 0 0 c.gyroZ c.trackingGood c.dt = some (g', left, right) ∧ P left right ∧
      StopKeeps P g' calls

/-- The ratio between the sides is the one of the turn `(V, W)`. -/
def TurnRatio (cfg : GlideConfig ℝ) (V W left right : ℝ) : Prop :=
  left * (turnRates cfg V W).2 = right * (turnRates cfg V W).1

variable {cfg : GlideConfig ℝ} {V W : ℝ}

/-- **The run lemma.**  A relation between the two profiles that the substeps keep,
and that leaves them in the proportion of the turn or next to rest, keeps the ratio
between the sides. -/
theorem stopKeeps_of_axes (Axes : MotionProfile ℝ → MotionProfile ℝ → Prop)
    (hacc : ∀ p q, Axes p q → |p.acceleration| ≤ cfg.axMax ∧ |q.acceleration| ≤ cfg.alphaMax)
    (hzero : Axes MotionProfile.zero MotionProfile.zero)
    (hstep : ∀ h p q, 0 < h → h ≤ 1 / 200 → Axes p q →
      Axes (motionProfileSubstep 0 cfg.axMax cfg.jxMax h p)
        (motionProfileSubstep 0 cfg.alphaMax cfg.jalphaMax h q))
    (hratio : ∀ p q, Axes p q → p.velocity * W = q.velocity * V ∨ Settles p q)
    {g : Glide ℝ} (hg : OpenLoop g) (hcfg : g.cfg = cfg) (haxes : Axes g.linear g.yaw)
    {calls : List StopCall} (hcalls : ∀ c ∈ calls, 0 < c.dt ∧ c.dt ≤ 0.1) :
    StopKeeps (TurnRatio cfg V W) g calls := by
  -- on the calls; the configuration is the same after each
  induction calls generalizing g with
  | nil => trivial
  | cons c calls ih =>
    obtain ⟨hdt, hdt'⟩ := hcalls c List.mem_cons_self
    obtain ⟨hh, hh'⟩ := motionProfileSteps_bounds hdt
    have hloop : ∀ i, Axes (motionProfileLoop 0 cfg.axMax cfg.jxMax c.dt i g.linear)
        (motionProfileLoop 0 cfg.alphaMax cfg.jalphaMax c.dt i g.yaw) := by
      intro i
      induction i with
      | zero => exact haxes
      | succ i ih =>
        rw [motionProfileLoop, motionProfileLoop] at ih ⊢
        rw [Function.iterate_succ_apply', Function.iterate_succ_apply']
        exact hstep _ _ _ hh hh' ih
    obtain ⟨hlin, hyaw⟩ := hacc _ _ haxes
    obtain ⟨g', hupdate, hg', hcfg', hcases⟩ := glideUpdate_stop c.gyroZ c.trackingGood hg
      (hcfg ▸ hlin) (hcfg ▸ hyaw) hdt hdt'
    rw [hcfg] at hcfg' hcases
    have hnext : Axes g'.linear g'.yaw ∧ g'.linear.velocity * W = g'.yaw.velocity * V := by
      rcases hcases with ⟨-, hl, hy⟩ | ⟨hmoving, hl, hy⟩
      · rw [hl, hy]
        exact ⟨hzero, by simp [MotionProfile.zero]⟩
      · rw [hl, hy]
        exact ⟨hloop _, (hratio _ _ (hloop _)).resolve_right hmoving⟩
    refine ⟨_, _, _, hupdate, ?_, ?_⟩
    · rw [TurnRatio, ← hcfg']
      exact (glideFinish_ratio hg' V W).mpr hnext.2
    · have hg'' : OpenLoop (glideFinish g').1 := ⟨hg'.accepted, hg'.feedback, hg'.correctionProfile⟩
      refine ih hg'' hcfg' hnext.1 ?_
      intro c' hc'
      exact hcalls c' (List.mem_cons_of_mem _ hc')

/-! ### Turns that keep their curvature -/

/-- The condition on the limits and the turn: a straight line, a spin, a turn the first
update drops, or one whose unit profiles agree. -/
def KeepsCurvature (cfg : GlideConfig ℝ) (V W : ℝ) : Prop :=
  V = 0 ∨ W = 0 ∨ max |V| |W| ≤ 1e-4 ∨
    (cfg.jxMax / |V| = cfg.jalphaMax / |W| ∧
      (cfg.axMax / |V| = cfg.alphaMax / |W| ∨
        NeverReaches (min (cfg.axMax / |V|) (cfg.alphaMax / |W|)) (cfg.jxMax / |V|) ∨
        max |V| |W| * (1 - min (cfg.axMax / |V|) (cfg.alphaMax / |W|) ^ 2 /
          (2 * (cfg.jxMax / |V|))) ≤ 1e-4))

theorem abs_scale_acceleration {c A J : ℝ} {p : MotionProfile ℝ} (hc : c ≠ 0)
    (hp : Stopping (A / |c|) J p) : |(p.scale (-c)).acceleration| ≤ A := by
  have habs : 0 < |c| := abs_pos.mpr hc
  have hle := hp.le_limit
  rw [le_div_iff₀ habs] at hle
  simp only [MotionProfile.scale]
  rw [abs_mul, abs_neg, abs_of_nonneg hp.acceleration]
  linarith

/-- An axis of the robot steps as its unit profile does. -/
theorem substep_unit {c A J h : ℝ} (p : MotionProfile ℝ) (hc : c ≠ 0) (hA : 0 < A) (hJ : 0 < J)
    (hh : 0 < h) :
    motionProfileSubstep 0 A J h (p.scale (-c)) =
      (motionProfileSubstep 0 (A / |c|) (J / |c|) h p).scale (-c) := by
  have habs : 0 < |c| := abs_pos.mpr hc
  have hJh : 0 ≤ J / |c| * h := by positivity
  have hscale := motionProfileSubstep_scale (p := p) (div_pos hA habs).le hJh (neg_ne_zero.mpr hc)
  rw [abs_neg, mul_div_cancel₀ _ habs.ne', mul_div_cancel₀ _ habs.ne'] at hscale
  exact hscale

theorem settles_of_nearStop {p q : MotionProfile ℝ} (hpv : p.velocity ≤ 0)
    (hqv : q.velocity ≤ 0) (hpa : 0 ≤ p.acceleration) (hqa : 0 ≤ q.acceleration)
    (hp : NearStop (max |V| |W|) p) (hq : NearStop (max |V| |W|) q) :
    Settles (p.scale (-V)) (q.scale (-W)) := by
  have bound : ∀ {c x limit : ℝ}, |c| ≤ max |V| |W| → 0 ≤ x → max |V| |W| * x < limit →
      |-c * x| < limit := by
    intro c x limit hc hx hlimit
    rw [abs_mul, abs_neg, abs_of_nonneg hx]
    exact (mul_le_mul_of_nonneg_right hc hx).trans_lt hlimit
  have flip : ∀ c x : ℝ, |-c * x| = |-c * -x| := by
    intro c x
    rw [mul_neg, abs_neg]
  refine ⟨?_, ?_, ?_, ?_⟩
  · rw [MotionProfile.scale, flip]
    exact bound (le_max_left _ _) (by linarith) hp.velocity
  · rw [MotionProfile.scale, flip]
    exact bound (le_max_right _ _) (by linarith) hq.velocity
  · exact bound (le_max_left _ _) hpa hp.acceleration
  · exact bound (le_max_right _ _) hqa hq.acceleration

/-- Two unit profiles in lockstep, as the axes of the robot. -/
structure AxesInLockstep (cfg : GlideConfig ℝ) (V W : ℝ) (Phase : MotionProfile ℝ → Prop)
    (p q : MotionProfile ℝ) : Prop where
  linear : Stopping (cfg.axMax / |V|) (cfg.jxMax / |V|) p
  yaw : Stopping (cfg.alphaMax / |W|) (cfg.jalphaMax / |W|) q
  phase : (p = q ∧ Phase p) ∨ (NearStop (max |V| |W|) p ∧ NearStop (max |V| |W|) q)

theorem stopKeeps_of_lockstep (hcfg : cfg.Accepted) (hV : V ≠ 0) (hW : W ≠ 0)
    (Phase : MotionProfile ℝ → Prop) (hstart : Phase ⟨-1, 0⟩)
    (hkeeps : KeepsLockstep (cfg.axMax / |V|) (cfg.alphaMax / |W|) (cfg.jxMax / |V|)
      (cfg.jalphaMax / |W|) (max |V| |W|) Phase)
    {g : Glide ℝ} (hg : OpenLoop g) (hgcfg : g.cfg = cfg) (hlinear : g.linear = ⟨V, 0⟩)
    (hyaw : g.yaw = ⟨W, 0⟩) {calls : List StopCall}
    (hcalls : ∀ c ∈ calls, 0 < c.dt ∧ c.dt ≤ 0.1) :
    StopKeeps (TurnRatio cfg V W) g calls := by
  have hV0 : 0 < |V| := abs_pos.mpr hV
  have hW0 : 0 < |W| := abs_pos.mpr hW
  have hM : 0 ≤ max |V| |W| := hV0.le.trans (le_max_left _ _)
  have hA := div_pos hcfg.axMax hV0
  have hJ := div_pos hcfg.jxMax hV0
  have hA' := div_pos hcfg.alphaMax hW0
  have hJ' := div_pos hcfg.jalphaMax hW0
  refine stopKeeps_of_axes (fun p q => ∃ a b, p = a.scale (-V) ∧ q = b.scale (-W) ∧
    AxesInLockstep cfg V W Phase a b) ?_ ?_ ?_ ?_ hg hgcfg ?_ hcalls
  · rintro _ _ ⟨a, b, rfl, rfl, hab⟩
    exact ⟨abs_scale_acceleration hV hab.linear, abs_scale_acceleration hW hab.yaw⟩
  · refine ⟨MotionProfile.zero, MotionProfile.zero, ?_, ?_, ?_⟩
    · simp [MotionProfile.zero, MotionProfile.scale]
    · simp [MotionProfile.zero, MotionProfile.scale]
    · exact ⟨stopping_zero hA hJ, stopping_zero hA' hJ',
        Or.inr ⟨nearStop_zero _, nearStop_zero _⟩⟩
  · rintro h _ _ hh hh' ⟨a, b, rfl, rfl, hab⟩
    refine ⟨_, _, substep_unit a hV hcfg.axMax hcfg.jxMax hh,
      substep_unit b hW hcfg.alphaMax hcfg.jalphaMax hh, ?_⟩
    refine ⟨stopping_substep hA hJ hh hh' hab.linear, stopping_substep hA' hJ' hh hh' hab.yaw, ?_⟩
    rcases hab.phase with ⟨rfl, hphase⟩ | ⟨ha, hb⟩
    · exact hkeeps h a hh hh' hab.linear hab.yaw hphase
    · exact Or.inr ⟨nearStop_substep hM hA hJ hh hh' hab.linear ha,
        nearStop_substep hM hA' hJ' hh hh' hab.yaw hb⟩
  · rintro _ _ ⟨a, b, rfl, rfl, hab⟩
    rcases hab.phase with ⟨rfl, -⟩ | ⟨ha, hb⟩
    · left
      simp only [MotionProfile.scale]
      ring
    · right
      exact settles_of_nearStop (hab.linear.velocity hJ) (hab.yaw.velocity hJ')
        hab.linear.acceleration hab.yaw.acceleration ha hb
  · refine ⟨⟨-1, 0⟩, ⟨-1, 0⟩, ?_, ?_, ?_⟩
    · simp [hlinear, MotionProfile.scale]
    · simp [hyaw, MotionProfile.scale]
    · have hunit : ∀ {A J : ℝ}, 0 < A → 0 < J → Stopping A J ⟨-1, 0⟩ := by
        intro A J hA hJ
        simpa [risingProfile] using stopping_rising_zero hA hJ
      exact ⟨hunit hA hJ, hunit hA' hJ', Or.inl ⟨rfl, hstart⟩⟩

/-- A straight line and a spin leave one axis at rest. -/
theorem stopKeeps_of_axis (hcfg : cfg.Accepted) (h : V = 0 ∨ W = 0) {g : Glide ℝ}
    (hg : OpenLoop g) (hgcfg : g.cfg = cfg) (hlinear : g.linear = ⟨V, 0⟩)
    (hyaw : g.yaw = ⟨W, 0⟩) {calls : List StopCall}
    (hcalls : ∀ c ∈ calls, 0 < c.dt ∧ c.dt ≤ 0.1) :
    StopKeeps (TurnRatio cfg V W) g calls := by
  have hrest : ∀ {A : ℝ}, 0 < A → |(MotionProfile.zero : MotionProfile ℝ).acceleration| ≤ A := by
    intro A hA
    simpa [MotionProfile.zero] using hA.le
  rcases h with rfl | rfl
  · refine stopKeeps_of_axes (fun p q => p = MotionProfile.zero ∧
      |q.acceleration| ≤ cfg.alphaMax) ?_ ?_ ?_ ?_ hg hgcfg ?_ hcalls
    · rintro _ q ⟨rfl, hq⟩
      exact ⟨hrest hcfg.axMax, hq⟩
    · exact ⟨rfl, hrest hcfg.alphaMax⟩
    · rintro h _ q hh hh' ⟨rfl, hq⟩
      exact ⟨substep_rest hcfg.axMax.le (mul_pos hcfg.jxMax hh).le,
        motionProfileSubstep_abs_acceleration hcfg.alphaMax.le (mul_pos hcfg.jalphaMax hh).le hq⟩
    · rintro _ q ⟨rfl, hq⟩
      left
      simp [MotionProfile.zero]
    · rw [hlinear, hyaw]
      exact ⟨rfl, by simpa using hcfg.alphaMax.le⟩
  · refine stopKeeps_of_axes (fun p q => q = MotionProfile.zero ∧
      |p.acceleration| ≤ cfg.axMax) ?_ ?_ ?_ ?_ hg hgcfg ?_ hcalls
    · rintro p _ ⟨rfl, hp⟩
      exact ⟨hp, hrest hcfg.alphaMax⟩
    · exact ⟨rfl, hrest hcfg.axMax⟩
    · rintro h p _ hh hh' ⟨rfl, hp⟩
      exact ⟨substep_rest hcfg.alphaMax.le (mul_pos hcfg.jalphaMax hh).le,
        motionProfileSubstep_abs_acceleration hcfg.axMax.le (mul_pos hcfg.jxMax hh).le hp⟩
    · rintro p _ ⟨rfl, hp⟩
      left
      simp [MotionProfile.zero]
    · rw [hlinear, hyaw]
      exact ⟨rfl, by simpa using hcfg.axMax.le⟩

theorem stopKeeps_of_keepsCurvature (hcfg : cfg.Accepted) (hkeeps : KeepsCurvature cfg V W)
    {g : Glide ℝ} (hg : OpenLoop g) (hgcfg : g.cfg = cfg) (hlinear : g.linear = ⟨V, 0⟩)
    (hyaw : g.yaw = ⟨W, 0⟩) {calls : List StopCall}
    (hcalls : ∀ c ∈ calls, 0 < c.dt ∧ c.dt ≤ 0.1) :
    StopKeeps (TurnRatio cfg V W) g calls := by
  by_cases hV : V = 0
  · exact stopKeeps_of_axis hcfg (Or.inl hV) hg hgcfg hlinear hyaw hcalls
  by_cases hW : W = 0
  · exact stopKeeps_of_axis hcfg (Or.inr hW) hg hgcfg hlinear hyaw hcalls
  have hV0 : 0 < |V| := abs_pos.mpr hV
  have hW0 : 0 < |W| := abs_pos.mpr hW
  have hM : 0 < max |V| |W| := lt_max_of_lt_left hV0
  have hA := div_pos hcfg.axMax hV0
  have hJ := div_pos hcfg.jxMax hV0
  have hA' := div_pos hcfg.alphaMax hW0
  have hJ' := div_pos hcfg.jalphaMax hW0
  rcases hkeeps with hV' | hW' | hsmall | ⟨hjerk, hlimit⟩
  · exact absurd hV' hV
  · exact absurd hW' hW
  · exact stopKeeps_of_lockstep hcfg hV hW (fun p => p = ⟨-1, 0⟩) rfl
      (keepsLockstep_of_small hM hsmall hA hA' hJ hJ') hg hgcfg hlinear hyaw hcalls
  · rcases hlimit with haccel | hlimit
    · refine stopKeeps_of_lockstep hcfg hV hW (fun _ => True) trivial ?_ hg hgcfg
        hlinear hyaw hcalls
      rw [← hjerk, ← haccel]
      exact keepsLockstep_of_eq _ _ _
    · set m := min (cfg.axMax / |V|) (cfg.alphaMax / |W|) with hm
      have hm0 : 0 < m := lt_min hA hA'
      refine stopKeeps_of_lockstep hcfg hV hW
        (fun p => Stopping m (cfg.jxMax / |V|) p ∧ Unhindered m (cfg.jxMax / |V|) p)
        ?_ ?_ hg hgcfg hlinear hyaw hcalls
      · have hrising : (⟨-1, 0⟩ : MotionProfile ℝ) = risingProfile (cfg.jxMax / |V|) 0 := by
          simp [risingProfile]
        rw [hrising]
        exact ⟨stopping_rising_zero hm0 hJ, Or.inl ⟨0, le_refl 0, by simpa using hm0.le, rfl⟩⟩
      · rw [← hjerk]
        exact keepsLockstep_of_limit hM hJ hm0 (min_le_left _ _) (min_le_right _ _) hlimit

/-! ### Turns that lose it -/

theorem not_settles {p q : MotionProfile ℝ} (hp : 1e-4 ≤ max |V| |W| * -p.velocity)
    (hq : 1e-4 ≤ max |V| |W| * -q.velocity) : ¬ Settles (p.scale (-V)) (q.scale (-W)) := by
  rintro ⟨hpv, hqv, -, -⟩
  simp only [MotionProfile.scale, abs_mul, abs_neg] at hpv hqv
  rcases max_cases |V| |W| with ⟨hmax, -⟩ | ⟨hmax, -⟩
  · rw [hmax] at hp
    have hle : |V| * -p.velocity ≤ |V| * |p.velocity| :=
      mul_le_mul_of_nonneg_left (neg_le_abs _) (abs_nonneg _)
    linarith
  · rw [hmax] at hq
    have hle : |W| * -q.velocity ≤ |W| * |q.velocity| :=
      mul_le_mul_of_nonneg_left (neg_le_abs _) (abs_nonneg _)
    linarith

section Lost

variable {g : Glide ℝ} {a b : MotionProfile ℝ} {h : ℝ}

/-- A short update that does not settle steps both unit profiles once. -/
theorem glideUpdate_stop_short (hV : V ≠ 0) (hW : W ≠ 0) (hg : OpenLoop g) (hgcfg : g.cfg = cfg)
    (hlinear : g.linear = a.scale (-V)) (hyaw : g.yaw = b.scale (-W))
    (ha : |(a.scale (-V)).acceleration| ≤ cfg.axMax)
    (hb : |(b.scale (-W)).acceleration| ≤ cfg.alphaMax) (hh : 0 < h) (hh' : h ≤ 1 / 200)
    (hmoving : ¬ Settles
      ((motionProfileSubstep 0 (cfg.axMax / |V|) (cfg.jxMax / |V|) h a).scale (-V))
      ((motionProfileSubstep 0 (cfg.alphaMax / |W|) (cfg.jalphaMax / |W|) h b).scale (-W))) :
    ∃ g', glideUpdate g 0 0 0 true h = some (glideFinish g') ∧ OpenLoop g' ∧ g'.cfg = cfg ∧
      g'.linear =
        (motionProfileSubstep 0 (cfg.axMax / |V|) (cfg.jxMax / |V|) h a).scale (-V) ∧
      g'.yaw =
        (motionProfileSubstep 0 (cfg.alphaMax / |W|) (cfg.jalphaMax / |W|) h b).scale (-W) := by
  have hcfg := hg.accepted
  rw [hgcfg] at hcfg
  obtain ⟨g', hupdate, hg', hcfg', hcases⟩ := glideUpdate_stop 0 true hg
    (by rw [hlinear, hgcfg]; exact ha) (by rw [hyaw, hgcfg]; exact hb) hh
    (hh'.trans (by norm_num))
  have hone : ∀ A J p, motionProfileLoop 0 A J h 1 p = motionProfileSubstep 0 A J h p := by
    intro A J p
    simp [motionProfileLoop, motionProfileSteps_short hh hh']
  rw [hgcfg] at hcfg' hcases
  rw [motionProfileSteps_short hh hh', hone, hone, hlinear, hyaw,
    substep_unit a hV hcfg.axMax hcfg.jxMax hh,
    substep_unit b hW hcfg.alphaMax hcfg.jalphaMax hh] at hcases
  rcases hcases with ⟨hsettled, -, -⟩ | ⟨-, hl, hy⟩
  · exact absurd hsettled hmoving
  · exact ⟨g', hupdate, hg', hcfg', hl, hy⟩

/-- Unit profiles that part in the last substep lose the ratio. -/
theorem not_stopKeeps_last (hV : V ≠ 0) (hW : W ≠ 0) (hg : OpenLoop g) (hgcfg : g.cfg = cfg)
    (hlinear : g.linear = a.scale (-V)) (hyaw : g.yaw = b.scale (-W))
    (ha : |(a.scale (-V)).acceleration| ≤ cfg.axMax)
    (hb : |(b.scale (-W)).acceleration| ≤ cfg.alphaMax) (hh : 0 < h) (hh' : h ≤ 1 / 200)
    (hmoving : ¬ Settles
      ((motionProfileSubstep 0 (cfg.axMax / |V|) (cfg.jxMax / |V|) h a).scale (-V))
      ((motionProfileSubstep 0 (cfg.alphaMax / |W|) (cfg.jalphaMax / |W|) h b).scale (-W)))
    (happart : (motionProfileSubstep 0 (cfg.axMax / |V|) (cfg.jxMax / |V|) h a).velocity ≠
      (motionProfileSubstep 0 (cfg.alphaMax / |W|) (cfg.jalphaMax / |W|) h b).velocity) :
    ¬ StopKeeps (TurnRatio cfg V W) g [⟨0, true, h⟩] := by
  obtain ⟨g', hupdate, hg', hcfg', hl, hy⟩ :=
    glideUpdate_stop_short hV hW hg hgcfg hlinear hyaw ha hb hh hh' hmoving
  rintro ⟨_, left, right, hout, hratio, -⟩
  simp only at hout
  rw [hupdate] at hout
  cases hout
  rw [TurnRatio, ← hcfg'] at hratio
  have hprop := (glideFinish_ratio hg' V W).mp hratio
  rw [hl, hy] at hprop
  simp only [MotionProfile.scale] at hprop
  have hzero : V * W * ((motionProfileSubstep 0 (cfg.axMax / |V|) (cfg.jxMax / |V|) h a).velocity -
      (motionProfileSubstep 0 (cfg.alphaMax / |W|) (cfg.jalphaMax / |W|) h b).velocity) = 0 := by
    linarith
  rcases mul_eq_zero.mp hzero with hVW | hdiff
  · exact (mul_ne_zero hV hW) hVW
  · exact happart (sub_eq_zero.mp hdiff)

/-- So do unit profiles that rise together and then part. -/
theorem not_stopKeeps_rising (hV : V ≠ 0) (hW : W ≠ 0) {j t k : ℝ} (hj : 0 ≤ j) (hk : 0 < k)
    (hk' : k ≤ 1 / 200) (hh : 0 < h) (hh' : h ≤ 1 / 200)
    (hrise : ∀ s, 0 ≤ s → s + k ≤ t →
      motionProfileSubstep 0 (cfg.axMax / |V|) (cfg.jxMax / |V|) k (risingProfile j s) =
        risingProfile j (s + k) ∧
      motionProfileSubstep 0 (cfg.alphaMax / |W|) (cfg.jalphaMax / |W|) k (risingProfile j s) =
        risingProfile j (s + k))
    (hlin : |V| * (j * t) ≤ cfg.axMax) (hyaw : |W| * (j * t) ≤ cfg.alphaMax)
    (hfar : 1e-4 ≤ max |V| |W| * -(risingProfile j t).velocity)
    (hmoving : ¬ Settles
      ((motionProfileSubstep 0 (cfg.axMax / |V|) (cfg.jxMax / |V|) h
        (risingProfile j t)).scale (-V))
      ((motionProfileSubstep 0 (cfg.alphaMax / |W|) (cfg.jalphaMax / |W|) h
        (risingProfile j t)).scale (-W)))
    (happart :
      (motionProfileSubstep 0 (cfg.axMax / |V|) (cfg.jxMax / |V|) h (risingProfile j t)).velocity ≠
      (motionProfileSubstep 0 (cfg.alphaMax / |W|) (cfg.jalphaMax / |W|) h
        (risingProfile j t)).velocity)
    (n : ℕ) {s : ℝ} (hs : 0 ≤ s) (hst : s + n * k = t) (hg : OpenLoop g) (hgcfg : g.cfg = cfg)
    (hlinear : g.linear = (risingProfile j s).scale (-V))
    (hyawAt : g.yaw = (risingProfile j s).scale (-W)) :
    ¬ StopKeeps (TurnRatio cfg V W) g (List.replicate n ⟨0, true, k⟩ ++ [⟨0, true, h⟩]) := by
  have hacc : ∀ {c limit s : ℝ}, 0 ≤ s → s ≤ t → |c| * (j * t) ≤ limit →
      |((risingProfile j s).scale (-c)).acceleration| ≤ limit := by
    intro c limit s hs hst hle
    simp only [MotionProfile.scale, risingProfile]
    rw [abs_mul, abs_neg, abs_of_nonneg (mul_nonneg hj hs)]
    refine le_trans ?_ hle
    exact mul_le_mul_of_nonneg_left (mul_le_mul_of_nonneg_left hst hj) (abs_nonneg c)
  -- on the number of short steps that are left to the end of the rise
  induction n generalizing s g with
  | zero =>
    simp only [Nat.cast_zero, zero_mul, add_zero] at hst
    subst hst
    exact not_stopKeeps_last hV hW hg hgcfg hlinear hyawAt (hacc hs (le_refl _) hlin)
      (hacc hs (le_refl _) hyaw) hh hh' hmoving happart
  | succ n ih =>
    have hnk : 0 ≤ (n : ℝ) * k := by positivity
    have hst' : s + k + n * k = t := by
      rw [← hst]
      push_cast
      ring
    have hle : s + k ≤ t := by linarith
    obtain ⟨hrise₁, hrise₂⟩ := hrise s hs hle
    -- the rise is still further from rest than its end
    have hfar' : 1e-4 ≤ max |V| |W| * -(risingProfile j (s + k)).velocity := by
      refine hfar.trans (mul_le_mul_of_nonneg_left ?_ ((abs_nonneg V).trans (le_max_left _ _)))
      have hsq : (s + k) ^ 2 ≤ t ^ 2 := pow_le_pow_left₀ (by linarith) hle 2
      simp only [risingProfile]
      linarith [mul_le_mul_of_nonneg_left hsq hj]
    obtain ⟨g', hupdate, hg', hcfg', hl, hy⟩ := glideUpdate_stop_short hV hW hg hgcfg hlinear
      hyawAt (hacc hs (by linarith) hlin) (hacc hs (by linarith) hyaw) hk hk'
      (by rw [hrise₁, hrise₂]; exact not_settles hfar' hfar')
    rw [hrise₁] at hl
    rw [hrise₂] at hy
    rintro ⟨_, left, right, hout, -, hrest⟩
    simp only at hout
    rw [hupdate] at hout
    cases hout
    have hg'' : OpenLoop (glideFinish g').1 := ⟨hg'.accepted, hg'.feedback, hg'.correctionProfile⟩
    exact ih (by linarith) hst' hg'' hcfg' hl hy hrest

end Lost

/-- Under one jerk, unit profiles that part at the end of the rising phase lose the ratio. -/
theorem exists_not_stopKeeps_of_limit {j : ℝ} (hcfg : cfg.Accepted) (hV : V ≠ 0) (hW : W ≠ 0)
    (hj : cfg.jxMax / |V| = j) (hj' : cfg.jalphaMax / |W| = j)
    {g : Glide ℝ} (hg : OpenLoop g) (hgcfg : g.cfg = cfg) (hlinear : g.linear = ⟨V, 0⟩)
    (hyaw : g.yaw = ⟨W, 0⟩) {t h : ℝ} (ht : 0 ≤ t) (hh : 0 < h) (hh' : h ≤ 1 / 200)
    (hjt : j * t ≤ min (cfg.axMax / |V|) (cfg.alphaMax / |W|))
    (hasked : min (cfg.axMax / |V|) (cfg.alphaMax / |W|) < approach j (1 - j * t ^ 2 / 2))
    (hrising : 1e-4 ≤ max |V| |W| * -(risingProfile j t).velocity)
    (happart : (motionProfileSubstep 0 (cfg.axMax / |V|) j h (risingProfile j t)).velocity ≠
      (motionProfileSubstep 0 (cfg.alphaMax / |W|) j h (risingProfile j t)).velocity)
    (hkeep : 1e-4 ≤ max |V| |W| *
      -(motionProfileSubstep 0 (cfg.axMax / |V|) j h (risingProfile j t)).velocity)
    (hkeep' : 1e-4 ≤ max |V| |W| *
      -(motionProfileSubstep 0 (cfg.alphaMax / |W|) j h (risingProfile j t)).velocity) :
    ∃ calls : List StopCall, (∀ c ∈ calls, 0 < c.dt ∧ c.dt ≤ 0.1) ∧
      ¬ StopKeeps (TurnRatio cfg V W) g calls := by
  have hV0 : 0 < |V| := abs_pos.mpr hV
  have hW0 : 0 < |W| := abs_pos.mpr hW
  have hj0 : 0 ≤ j := hj ▸ (div_pos hcfg.jxMax hV0).le
  have hm : 0 ≤ min (cfg.axMax / |V|) (cfg.alphaMax / |W|) :=
    (lt_min (div_pos hcfg.axMax hV0) (div_pos hcfg.alphaMax hW0)).le
  have hback : ∀ {c limit : ℝ}, 0 < |c| → j * t ≤ limit / |c| → |c| * (j * t) ≤ limit := by
    intro c limit hc hx
    rw [le_div_iff₀ hc] at hx
    linarith
  obtain ⟨n, k, hk, hk', hnk⟩ := exists_short_steps ht
  refine ⟨List.replicate n ⟨0, true, k⟩ ++ [⟨0, true, h⟩], ?_, ?_⟩
  · intro c hc
    rcases List.mem_append.mp hc with hc | hc
    · rw [List.eq_of_mem_replicate hc]
      exact ⟨hk, hk'.trans (by norm_num)⟩
    · rw [List.mem_singleton.mp hc]
      exact ⟨hh, hh'.trans (by norm_num)⟩
  · refine not_stopKeeps_rising (j := j) (t := t) hV hW hj0 hk hk' hh hh' ?_
      (hback hV0 (hjt.trans (min_le_left _ _))) (hback hW0 (hjt.trans (min_le_right _ _)))
      hrising ?_ ?_ n (le_refl 0) (by linarith) hg hgcfg ?_ ?_
    · intro s hs hst
      rw [hj, hj']
      exact ⟨substep_rising_until hm (min_le_left _ _) hj0 hjt hasked hs hk.le hst,
        substep_rising_until hm (min_le_right _ _) hj0 hjt hasked hs hk.le hst⟩
    · rw [hj, hj']
      exact not_settles hkeep hkeep'
    · rw [hj, hj']
      exact happart
    · simp [hlinear, risingProfile, MotionProfile.scale]
    · simp [hyaw, risingProfile, MotionProfile.scale]

/-- Every turn outside `KeepsCurvature` loses its curvature in some run. -/
theorem exists_not_stopKeeps (hcfg : cfg.Accepted) (hlost : ¬ KeepsCurvature cfg V W)
    {g : Glide ℝ} (hg : OpenLoop g) (hgcfg : g.cfg = cfg) (hlinear : g.linear = ⟨V, 0⟩)
    (hyaw : g.yaw = ⟨W, 0⟩) :
    ∃ calls : List StopCall, (∀ c ∈ calls, 0 < c.dt ∧ c.dt ≤ 0.1) ∧
      ¬ StopKeeps (TurnRatio cfg V W) g calls := by
  rw [KeepsCurvature, not_or, not_or, not_or, not_le] at hlost
  obtain ⟨hV, hW, hM, hlost⟩ := hlost
  have hV0 : 0 < |V| := abs_pos.mpr hV
  have hW0 : 0 < |W| := abs_pos.mpr hW
  have hM0 : 0 < max |V| |W| := lt_max_of_lt_left hV0
  have hA := div_pos hcfg.axMax hV0
  have hJ := div_pos hcfg.jxMax hV0
  have hA' := div_pos hcfg.alphaMax hW0
  have hJ' := div_pos hcfg.jalphaMax hW0
  by_cases hjerk : cfg.jxMax / |V| = cfg.jalphaMax / |W|
  · -- one jerk: the tighter acceleration limit parts the axes
    rw [not_and, not_or, not_or, not_le] at hlost
    obtain ⟨hne, hreached, hfar⟩ := hlost hjerk
    rcases lt_or_gt_of_ne hne with hlt | hlt
    · have hmin := min_eq_left hlt.le
      rw [hmin] at hreached hfar
      obtain ⟨t, h, ht, hh, hh', hjt, hasked, hrising, happart, hkeep, hkeep'⟩ :=
        exists_apart_of_limit hA hJ hlt hfar hM0 hreached
      rw [← hmin] at hjt hasked
      exact exists_not_stopKeeps_of_limit hcfg hV hW rfl hjerk.symm hg hgcfg hlinear hyaw ht hh hh'
        hjt hasked hrising happart hkeep hkeep'
    · have hmin := min_eq_right hlt.le
      rw [hmin] at hreached hfar
      obtain ⟨t, h, ht, hh, hh', hjt, hasked, hrising, happart, hkeep, hkeep'⟩ :=
        exists_apart_of_limit hA' hJ hlt hfar hM0 hreached
      rw [← hmin] at hjt hasked
      exact exists_not_stopKeeps_of_limit hcfg hV hW rfl hjerk.symm hg hgcfg hlinear hyaw ht hh hh'
        hjt hasked hrising happart.symm hkeep' hkeep
  · obtain ⟨h, hh, hh', hrise, hrise', happart, hkeep, hkeep'⟩ :=
      exists_apart_of_jerk hA hA' hJ hJ' hM hjerk
    refine ⟨[⟨0, true, h⟩], ?_, ?_⟩
    · intro c hc
      rw [List.mem_singleton.mp hc]
      exact ⟨hh, hh'.trans (by norm_num)⟩
    · refine not_stopKeeps_last (a := risingProfile (cfg.jxMax / |V|) 0)
        (b := risingProfile (cfg.jalphaMax / |W|) 0) hV hW hg hgcfg ?_ ?_ ?_ ?_ hh hh' ?_ ?_
      · simp [hlinear, risingProfile, MotionProfile.scale]
      · simp [hyaw, risingProfile, MotionProfile.scale]
      · simpa [risingProfile, MotionProfile.scale] using hcfg.axMax.le
      · simpa [risingProfile, MotionProfile.scale] using hcfg.alphaMax.le
      · rw [hrise, hrise']
        exact not_settles hkeep hkeep'
      · rw [hrise, hrise']
        exact happart

/-! ### The turn to a stop -/

/-- A controller settled in the turn `(V, W)`, within its limits and unsaturated, with
the rates `L` and `R` of its sides. -/
structure SettledTurn (g : Glide ℝ) (V W L R : ℝ) : Prop where
  feedback : g.cfg.yawFeedback = false
  linear : g.linear = ⟨V, 0⟩
  yaw : g.yaw = ⟨W, 0⟩
  correctionProfile : g.correctionProfile = MotionProfile.zero
  correction : g.correction = 0
  linearLimit : |V| ≤ g.cfg.vxMax
  yawLimit : |W| ≤ g.cfg.wzMax
  rates : glideAllocate g g.correction = (L, R, false)

theorem SettledTurn.turnRates_eq {g : Glide ℝ} {L R : ℝ} (hg : SettledTurn g V W L R) :
    turnRates g.cfg V W = (L, R) := by
  have hrates := hg.rates
  rw [glideAllocate, hg.correction, hg.linear, hg.yaw] at hrates
  split at hrates
  · simp at hrates
  · simp only [add_zero, Prod.mk.injEq] at hrates
    exact Prod.ext hrates.1 hrates.2.1

/-- **The turn to a stop.**  From a settled turn, every run under the command zero keeps
the ratio between the sides, exactly when the limits and the turn satisfy
`KeepsCurvature`. -/
theorem turn_to_stop_iff {g : Glide ℝ} {L R : ℝ}
    (hinit : glideInit g.cfg = some (glideAtRest g.cfg)) (hg : SettledTurn g V W L R) :
    (∀ calls : List StopCall, (∀ c ∈ calls, 0 < c.dt ∧ c.dt ≤ 0.1) →
      StopKeeps (fun left right => left * R = right * L) g calls) ↔
    KeepsCurvature g.cfg V W := by
  have hcfg := (glideInit_eq_some_iff.mp hinit).1
  have hopen : OpenLoop g := ⟨hcfg, hg.feedback, hg.correctionProfile⟩
  have hratio : (fun left right => left * R = right * L) = TurnRatio g.cfg V W := by
    funext left right
    rw [TurnRatio, hg.turnRates_eq]
  rw [hratio]
  constructor
  · intro hkeeps
    by_contra hlost
    obtain ⟨calls, hcalls, hnot⟩ := exists_not_stopKeeps hcfg hlost hopen rfl hg.linear hg.yaw
    exact hnot (hkeeps calls hcalls)
  · intro hkeeps calls hcalls
    exact stopKeeps_of_keepsCurvature hcfg hkeeps hopen rfl hg.linear hg.yaw hcalls

/-- A controller at rest set into the turn `(V, W)`. -/
noncomputable def glideTurning (cfg : GlideConfig ℝ) (V W : ℝ) : Glide ℝ :=
  { glideAtRest cfg with linear := ⟨V, 0⟩, yaw := ⟨W, 0⟩ }

theorem settledTurn_turning (hfeedback : cfg.yawFeedback = false) (hV : |V| ≤ cfg.vxMax)
    (hW : |W| ≤ cfg.wzMax) (hleft : |(turnRates cfg V W).1| ≤ cfg.wheelMax)
    (hright : |(turnRates cfg V W).2| ≤ cfg.wheelMax) :
    SettledTurn (glideTurning cfg V W) V W (turnRates cfg V W).1 (turnRates cfg V W).2 where
  feedback := hfeedback
  linear := rfl
  yaw := rfl
  correctionProfile := rfl
  correction := rfl
  linearLimit := hV
  yawLimit := hW
  rates := by
    have hpeak : ¬ cfg.wheelMax < max |(turnRates cfg V W).1| |(turnRates cfg V W).2| :=
      not_lt.mpr (max_le hleft hright)
    rw [glideAllocate]
    simp only [glideTurning, glideAtRest, add_zero, fabs_exact, fmax_exact]
    exact if_neg hpeak

/-- The configuration of the host test without yaw closure. -/
noncomputable def glideOpenLoopConfig : GlideConfig ℝ :=
  { glideTestConfig with yawFeedback := false }

theorem glideOpenLoopConfig_accepted : glideOpenLoopConfig.Accepted :=
  ⟨glideTestConfig_accepted.positive, glideTestConfig_accepted.nonnegative⟩

/-- A straight line stops as one. -/
theorem turn_to_stop_straight :
    StopKeeps (fun left right => left * (turnRates glideOpenLoopConfig 0.2 0).2 =
      right * (turnRates glideOpenLoopConfig 0.2 0).1) (glideTurning glideOpenLoopConfig 0.2 0)
      [⟨0, true, 0.02⟩, ⟨0.1, false, 0.1⟩] := by
  refine (turn_to_stop_iff (glideInit_eq_some_iff.mpr ⟨glideOpenLoopConfig_accepted, rfl⟩)
    (settledTurn_turning rfl ?_ ?_ ?_ ?_)).mpr (Or.inr (Or.inl rfl)) _ ?_
  all_goals norm_num [glideOpenLoopConfig, glideTestConfig, turnRates, abs_of_pos]

/-- A turn at 0.2 m/s and 0.6 rad/s loses its curvature in the first 5 ms. -/
theorem turn_to_stop_lost :
    SettledTurn (glideTurning glideOpenLoopConfig 0.2 0.6) 0.2 0.6
        (turnRates glideOpenLoopConfig 0.2 0.6).1 (turnRates glideOpenLoopConfig 0.2 0.6).2 ∧
      ¬ StopKeeps (fun left right => left * (turnRates glideOpenLoopConfig 0.2 0.6).2 =
        right * (turnRates glideOpenLoopConfig 0.2 0.6).1)
        (glideTurning glideOpenLoopConfig 0.2 0.6) [⟨0, true, 0.005⟩] := by
  have hroot : ∀ {B J : ℝ}, 0.1 ≤ B → J * 0.005 ≤ 0.1 → 0.01 ≤ J →
      motionProfileSubstep 0 B J 0.005 (risingProfile J 0) = risingProfile J 0.005 := by
    intro B J hB hJ hJ'
    have hdemand : J * (0 + 0.005) ≤ min B (approach J (1 - J * 0 ^ 2 / 2)) := by
      refine le_min (by linarith) (le_min (by norm_num; linarith) ?_)
      refine Real.le_sqrt_of_sq_le ?_
      nlinarith
    have hrise := substep_rising (by linarith) (by norm_num) (by linarith) hdemand
    rwa [zero_add] at hrise
  have hlin : motionProfileSubstep 0 (glideOpenLoopConfig.axMax / |(0.2 : ℝ)|)
      (glideOpenLoopConfig.jxMax / |(0.2 : ℝ)|) 0.005 (risingProfile 10 0) =
      risingProfile 10 0.005 := by
    rw [show glideOpenLoopConfig.jxMax / |(0.2 : ℝ)| = 10 by
      norm_num [glideOpenLoopConfig, glideTestConfig, abs_of_pos]]
    refine hroot ?_ (by norm_num) (by norm_num)
    norm_num [glideOpenLoopConfig, glideTestConfig, abs_of_pos]
  have hyaw : motionProfileSubstep 0 (glideOpenLoopConfig.alphaMax / |(0.6 : ℝ)|)
      (glideOpenLoopConfig.jalphaMax / |(0.6 : ℝ)|) 0.005 (risingProfile (50 / 3) 0) =
      risingProfile (50 / 3) 0.005 := by
    rw [show glideOpenLoopConfig.jalphaMax / |(0.6 : ℝ)| = 50 / 3 by
      norm_num [glideOpenLoopConfig, glideTestConfig, abs_of_pos]]
    refine hroot ?_ (by norm_num) (by norm_num)
    norm_num [glideOpenLoopConfig, glideTestConfig, abs_of_pos]
  constructor
  · refine settledTurn_turning rfl ?_ ?_ ?_ ?_
    all_goals norm_num [glideOpenLoopConfig, glideTestConfig, turnRates, abs_of_pos]
  · refine not_stopKeeps_last (a := risingProfile 10 0) (b := risingProfile (50 / 3) 0)
      (by norm_num) (by norm_num)
      ⟨glideOpenLoopConfig_accepted, rfl, rfl⟩ rfl ?_ ?_ ?_ ?_ (by norm_num) (by norm_num) ?_ ?_
    · norm_num [glideTurning, risingProfile, MotionProfile.scale]
    · norm_num [glideTurning, risingProfile, MotionProfile.scale]
    · norm_num [risingProfile, MotionProfile.scale, glideOpenLoopConfig, glideTestConfig]
    · norm_num [risingProfile, MotionProfile.scale, glideOpenLoopConfig, glideTestConfig]
    · rw [hlin, hyaw]
      refine not_settles ?_ ?_
      · norm_num [risingProfile, abs_of_pos]
      · norm_num [risingProfile, abs_of_pos]
    · rw [hlin, hyaw]
      norm_num [risingProfile]
