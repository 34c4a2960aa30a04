/-
The documented ranges of the calibration parameters, over exact arithmetic.

Three validators look at a new set of parameters: the ranges of the protocol,
the checks of `wheels_configure_calibration` and those of `glide_init`.
`Documented` is what the protocol's ranges promise; the other two refuse nothing
that has it.

* `Request.parameters_documented` — an accepted `set` or `config` asks for
  documented parameters;
* `Documented.configurable_iff` — the hardware refuses them only in motion;
* `Documented.installed` — once in force they are reported unchanged.
-/
import Base101.WheelsStep
import Base101.ProtocolStep

open Double

section Exact

variable {K : Type} [Field K] [LinearOrder K] [FloorRing K] [Libm K]

/-- The ranges of `config`, and the three integral values. -/
structure CalibrationParameters.Documented (p : CalibrationParameters K) : Prop where
  ax : InRange 0.01 5 p.ax
  jx : InRange 0.01 50 p.jx
  aw : InRange 0.01 20 p.aw
  jw : InRange 0.01 200 p.jw
  kIcr : InRange 1 5 p.kIcr
  radius : InRange 0.02 0.1 p.radius
  separation : InRange 0.15 0.5 p.separation
  ramp : InRange 1 255 p.ramp
  rpmMax : InRange 20 200 p.rpmMax
  vxMax : InRange 0.05 0.4 p.vxMax
  wzMax : InRange 0.1 0.8 p.wzMax
  lpf : InRange 1 80 p.lpf
  kp : InRange 0 2 p.kp
  ki : InRange 0 2 p.ki
  correctionMax : InRange 0 1 p.correctionMax
  deadband : InRange 0 0.05 p.deadband
  correctionAccel : InRange 0.01 2 p.correctionAccel
  correctionJerk : InRange 0.01 20 p.correctionJerk
  yawFeedback : InRange 0 1 p.yawFeedback
  rampIntegral : (⌊p.ramp⌋ : K) = p.ramp
  rpmMaxIntegral : (⌊p.rpmMax⌋ : K) = p.rpmMax
  yawFeedbackIntegral : (⌊p.yawFeedback⌋ : K) = p.yawFeedback

open CalibrationParameters

/-! ### What the protocol accepts -/

theorem configParameters_documented {values : List String} {p : CalibrationParameters K}
    (h : configParameters values = some p) : p.Documented := by
  simp only [configParameters, Option.bind_eq_bind, Option.bind_eq_some_iff] at h
  obtain ⟨q, hvalues, h⟩ := h
  split_ifs at h with hintegral
  obtain rfl := Option.some.inj h
  simp only [Bool.or_eq_true, bne_iff_ne, ne_eq, not_or, not_not, floor_exact] at hintegral
  unfold configValues at hvalues
  split at hvalues
  · -- one value at a time, in the order of the wire format
    obtain ⟨ax, h2, hvalues⟩ := Option.bind_eq_some_iff.mp hvalues
    obtain ⟨jx, h3, hvalues⟩ := Option.bind_eq_some_iff.mp hvalues
    obtain ⟨aw, h4, hvalues⟩ := Option.bind_eq_some_iff.mp hvalues
    obtain ⟨jw, h5, hvalues⟩ := Option.bind_eq_some_iff.mp hvalues
    obtain ⟨kIcr, h6, hvalues⟩ := Option.bind_eq_some_iff.mp hvalues
    obtain ⟨radius, h7, hvalues⟩ := Option.bind_eq_some_iff.mp hvalues
    obtain ⟨separation, h8, hvalues⟩ := Option.bind_eq_some_iff.mp hvalues
    obtain ⟨ramp, h9, hvalues⟩ := Option.bind_eq_some_iff.mp hvalues
    obtain ⟨rpmMax, h10, hvalues⟩ := Option.bind_eq_some_iff.mp hvalues
    obtain ⟨vxMax, h11, hvalues⟩ := Option.bind_eq_some_iff.mp hvalues
    obtain ⟨wzMax, h12, hvalues⟩ := Option.bind_eq_some_iff.mp hvalues
    obtain ⟨lpf, h13, hvalues⟩ := Option.bind_eq_some_iff.mp hvalues
    obtain ⟨kp, h14, hvalues⟩ := Option.bind_eq_some_iff.mp hvalues
    obtain ⟨ki, h15, hvalues⟩ := Option.bind_eq_some_iff.mp hvalues
    obtain ⟨correctionMax, h16, hvalues⟩ := Option.bind_eq_some_iff.mp hvalues
    obtain ⟨deadband, h17, hvalues⟩ := Option.bind_eq_some_iff.mp hvalues
    obtain ⟨correctionAccel, h18, hvalues⟩ := Option.bind_eq_some_iff.mp hvalues
    obtain ⟨correctionJerk, h19, hvalues⟩ := Option.bind_eq_some_iff.mp hvalues
    obtain ⟨yawFeedback, h20, hvalues⟩ := Option.bind_eq_some_iff.mp hvalues
    obtain rfl := Option.some.inj hvalues
    exact
      { ax := value_inRange h2, jx := value_inRange h3, aw := value_inRange h4
        jw := value_inRange h5, kIcr := value_inRange h6, radius := value_inRange h7
        separation := value_inRange h8, ramp := value_inRange h9, rpmMax := value_inRange h10
        vxMax := value_inRange h11, wzMax := value_inRange h12, lpf := value_inRange h13
        kp := value_inRange h14, ki := value_inRange h15, correctionMax := value_inRange h16
        deadband := value_inRange h17, correctionAccel := value_inRange h18
        correctionJerk := value_inRange h19, yawFeedback := value_inRange h20
        rampIntegral := hintegral.1.1, rpmMaxIntegral := hintegral.1.2
        yawFeedbackIntegral := hintegral.2 }
  · cases hvalues

theorem setParameters_documented {values : List String} {p q : CalibrationParameters K}
    (h : setParameters p values = some q) (hp : p.Documented) : q.Documented := by
  unfold setParameters at h
  split at h
  · simp only [Option.bind_eq_bind, Option.bind_eq_some_iff] at h
    obtain ⟨ax, h2, jx, h3, aw, h4, jw, h5, kIcr, h6, h⟩ := h
    obtain rfl := Option.some.inj h
    exact
      { hp with
        ax := value_inRange h2, jx := value_inRange h3, aw := value_inRange h4
        jw := value_inRange h5, kIcr := value_inRange h6 }
  · cases h

/-- An accepted `set` or `config` asks for documented parameters. -/
theorem Request.parameters_documented {r : Request} {p q : CalibrationParameters K}
    (h : r.parameters p = some q) (hp : p.Documented) : q.Documented := by
  cases r with
  | set values => exact setParameters_documented h hp
  | config values => exact configParameters_documented h
  | _ => cases h

/-! ### What the hardware accepts -/

variable [IsStrictOrderedRing K]

theorem yawFeedback_cases {p : CalibrationParameters K} (hp : p.Documented) :
    p.yawFeedback = 0 ∨ p.yawFeedback = 1 := by
  obtain ⟨hlow, hhigh⟩ := inRange_exact.mp hp.yawFeedback
  rw [← hp.yawFeedbackIntegral] at hlow hhigh ⊢
  have hlow' : (0 : ℤ) ≤ ⌊p.yawFeedback⌋ := by exact_mod_cast hlow
  have hhigh' : ⌊p.yawFeedback⌋ ≤ (1 : ℤ) := by exact_mod_cast hhigh
  have hcases : ⌊p.yawFeedback⌋ = 0 ∨ ⌊p.yawFeedback⌋ = 1 := by omega
  rcases hcases with h | h
  · exact .inl (by rw [h]; simp)
  · exact .inr (by rw [h]; simp)

theorem CalibrationParameters.Documented.not_refused {p : CalibrationParameters K}
    (hp : p.Documented) : parametersRefused p = false := by
  have hyaw : (p.yawFeedback != 0 && p.yawFeedback != 1) = false := by
    rcases yawFeedback_cases hp with h | h <;> simp [h]
  have hramp : (floor p.ramp != p.ramp) = false := by simp [hp.rampIntegral]
  obtain ⟨-, hrpm, hrpm'⟩ := hp.rpmMax
  obtain ⟨-, hvx, hvx'⟩ := hp.vxMax
  obtain ⟨-, hwz, hwz'⟩ := hp.wzMax
  obtain ⟨-, hramp1, hramp2⟩ := hp.ramp
  obtain ⟨-, hlpf, hlpf'⟩ := hp.lpf
  rw [parametersRefused]
  rw [hyaw, hramp]
  simp [hrpm, hrpm', hvx, hvx', hwz, hwz', hramp1, hramp2, hlpf, hlpf']

theorem fabs_wheelSpeedScale : fabs (wheelSpeedScale : K) = 1 := by
  rw [wheelSpeedScale, fabs_exact]
  norm_num

theorem twoPi_pos : (0 : K) < twoPi := by
  rw [twoPi]
  norm_num

theorem CalibrationParameters.Documented.glideInit_eq {p : CalibrationParameters K}
    (hp : p.Documented) :
    glideInit (glideConfigOf p) = some (glideAtRest (glideConfigOf p)) := by
  have low {low high v : K} (h : InRange low high v) : low ≤ v := (inRange_exact.mp h).1
  have hwheel : 0 < p.rpmMax * twoPi / 60 / fabs (wheelSpeedScale : K) := by
    have hrpm : (0 : K) < p.rpmMax := lt_of_lt_of_le (by norm_num) (low hp.rpmMax)
    have hpi : (0 : K) < twoPi := twoPi_pos
    rw [fabs_wheelSpeedScale]
    positivity
  have hpositive : ∀ x ∈ (glideConfigOf p).positive, 0 < x := by
    simp only [GlideConfig.positive, glideConfigOf, List.forall_mem_cons]
    refine ⟨?_, ?_, ?_, hwheel, ?_, ?_, ?_, ?_, ?_, ?_, ?_, ?_, by simp⟩
    · exact lt_of_lt_of_le (by norm_num) (low hp.radius)
    · exact lt_of_lt_of_le (by norm_num) (low hp.separation)
    · exact lt_of_lt_of_le (by norm_num) (low hp.kIcr)
    · exact lt_of_lt_of_le (by norm_num) (low hp.vxMax)
    · exact lt_of_lt_of_le (by norm_num) (low hp.wzMax)
    · exact lt_of_lt_of_le (by norm_num) (low hp.ax)
    · exact lt_of_lt_of_le (by norm_num) (low hp.aw)
    · exact lt_of_lt_of_le (by norm_num) (low hp.jx)
    · exact lt_of_lt_of_le (by norm_num) (low hp.jw)
    · exact lt_of_lt_of_le (by norm_num) (low hp.correctionAccel)
    · exact lt_of_lt_of_le (by norm_num) (low hp.correctionJerk)
  have hnonnegative : ∀ x ∈ (glideConfigOf p).nonnegative, 0 ≤ x := by
    simp only [GlideConfig.nonnegative, glideConfigOf, List.forall_mem_cons]
    exact ⟨low hp.kp, low hp.ki, low hp.correctionMax, low hp.deadband, by simp⟩
  exact glideInit_exact hpositive hnonnegative

/-- The hardware refuses documented parameters in motion only. -/
theorem CalibrationParameters.Documented.configurable_iff {p : CalibrationParameters K}
    (hp : p.Documented) (w : Wheels K) (now : UInt64) :
    Configurable w now p ↔
      (wheelsGetDriveStatus w now).atRest ∧ w.motionEnabled = false :=
  ⟨fun h => ⟨h.atRest, h.still⟩, fun h => ⟨h.1, h.2, hp.not_refused, hp.glideInit_eq⟩⟩

/-! ### What is reported -/

/-- An integral ramp survives the conversion to `uint8_t`. -/
theorem toUInt8_of_integral {x : K} (hrange : InRange 1 255 x) (hintegral : (⌊x⌋ : K) = x) :
    ((toUInt8 x).toNat : K) = x := by
  obtain ⟨hlow, hhigh⟩ := inRange_exact.mp hrange
  rw [← hintegral] at hlow hhigh ⊢
  generalize ⌊x⌋ = n at hlow hhigh ⊢
  have hlow' : (1 : ℤ) ≤ n := by exact_mod_cast hlow
  have hhigh' : n ≤ (255 : ℤ) := by exact_mod_cast hhigh
  obtain ⟨m, rfl⟩ := Int.eq_ofNat_of_zero_le (by omega : 0 ≤ n)
  have hm : m < 256 := by omega
  rw [toUInt8, toInt_intCast, Int.toNat_natCast, UInt8.toNat_ofNat_of_lt' hm]
  norm_cast

/-- A documented set of parameters in force is reported as it was asked for. -/
theorem CalibrationParameters.Documented.installed {old : GyroYawConfig K} {w : Wheels K}
    {p : CalibrationParameters K} (hp : p.Documented) (h : Installed old w p) :
    wheelsGetParameters w = p := by
  have hramp := toUInt8_of_integral hp.ramp hp.rampIntegral
  have hrpm : Double.round (p.rpmMax * twoPi / 60 / fabs wheelSpeedScale * fabs wheelSpeedScale *
      60 / twoPi) = p.rpmMax := by
    have hpi : (twoPi : K) ≠ 0 := ne_of_gt twoPi_pos
    have hunits : p.rpmMax * twoPi / 60 / 1 * 1 * 60 / twoPi = p.rpmMax := by field_simp
    rw [fabs_wheelSpeedScale, hunits, ← hp.rpmMaxIntegral, round_exact, roundHalfAway_intCast]
  have hlpf : (configuredGyro old p).lpfHz = p.lpf := by
    rw [configuredGyro]
    split
    · rfl
    next hsame => simpa using hsame
  have hyaw : (if p.yawFeedback != 0 then 1 else 0 : K) = p.yawFeedback := by
    rcases yawFeedback_cases hp with h | h <;> simp [h]
  rw [wheelsGetParameters]
  rw [h.cfg, h.motorRamp, h.gyroConfig]
  ext
  all_goals first | rfl | assumption

end Exact
