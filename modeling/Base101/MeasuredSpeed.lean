/-
What the measured speeds stand for.

A reply gives the speed of its wheel in units of 0.1 RPM, and is kept as a speed at the
rim: with the direction of the wheel and the radius in force.  When another radius is
taken the speeds kept so far are rescaled, so between any two operations a valid speed is
still the one the last reply of its wheel gives under the configuration in force.

* `ReportsSound.step`, `ReportsSound.run` — the invariant, and the configurations that can
  be in force.
-/
import Base101.CommandRatio
import Base101.WheelsBraking

open Double Function

section Reports

variable {F : Type} [Double F]

/-- The speed at the rim that a reply gives. -/
def reportedSpeed (cfg : GlideConfig F) (i : Fin 4) (fb : MotorReply) : F :=
  ((fb.feedback1.toInt : ℤ) : F) * (twoPi / 600.0) * ((wheelTable i).direction : F) * cfg.radius

/-- What the measured speeds depend on. -/
structure SameReports (w w' : Wheels F) : Prop where
  cfg : w'.controller.cfg = w.controller.cfg
  measured : w'.measured = w.measured
  measuredValid : w'.measuredValid = w.measuredValid
  lastReply : w'.lastReply = w.lastReply

end Reports

/-! ### The invariant -/

/-- A configuration that passed `glide_init`, with the wheels at 200 RPM at most. -/
structure InForce (cfg : GlideConfig ℝ) : Prop where
  accepted : cfg.Accepted
  wheelMax : cfg.wheelMax ≤ 200 * twoPi / 60

/-- The invariant: every valid speed is what the last reply of its wheel gives under the
configuration in force. -/
structure ReportsSound (w : Wheels ℝ) : Prop where
  config : InForce w.controller.cfg
  reported : ∀ i, w.measuredValid i → ∃ fb, w.lastReply i = some fb ∧ fb.valid ∧
    w.measured i = reportedSpeed w.controller.cfg i fb

section Invariant

variable {env : Bus} {w w' : Wheels ℝ}

theorem ReportsSound.congr (h : ReportsSound w) (hsame : SameReports w w') : ReportsSound w' := by
  refine ⟨hsame.cfg ▸ h.config, ?_⟩
  intro i hi
  rw [hsame.measuredValid] at hi
  rw [hsame.lastReply, hsame.measured, hsame.cfg]
  exact h.reported i hi

/-- No speed is measured before the first reply. -/
theorem ReportsSound.of_not_valid (hcfg : InForce w.controller.cfg)
    (h : ∀ i, w.measuredValid i = false) : ReportsSound w := by
  refine ⟨hcfg, ?_⟩
  intro i hi
  rw [h i] at hi
  cases hi

/-- The zero of a reply is the product with zero. -/
theorem savedSpeed_eq (cfg : GlideConfig ℝ) (i : Fin 4) (fb : MotorReply) :
    (if fb.feedback1 = 0 then 0.0
      else ((fb.feedback1.toInt : ℤ) : ℝ) * (twoPi / 600.0) * ((wheelTable i).direction : ℝ) *
        cfg.radius) = reportedSpeed cfg i fb := by
  rw [reportedSpeed]
  split
  next hzero =>
    have hnone : (0 : Int16).toInt = 0 := rfl
    rw [hzero, hnone]
    norm_num
  next => rfl

/-- The step lemma of a frame with feedback. -/
theorem ReportsSound.feedback (h : ReportsSound w) (i : Fin 4) (frame : Frame) :
    ReportsSound (saveFeedback env (exchange env w i frame).2 i (exchange env w i frame).1) := by
  refine ⟨h.config, ?_⟩
  intro j hj
  set fb := env.reply w.frames with hfb
  by_cases hij : j = i
  · rw [hij] at hj ⊢
    have hvalid : fb.valid = true := by
      simpa [saveFeedback, exchange] using hj
    refine ⟨fb, by simp [saveFeedback, exchange, hfb], hvalid, ?_⟩
    show (if fb.valid then update w.measured i _ else w.measured) i = _
    rw [if_pos hvalid, update_self]
    exact savedSpeed_eq w.controller.cfg i fb
  · have hold : w.measuredValid j = true := by
      simpa [saveFeedback, exchange, hij] using hj
    obtain ⟨last, hlast, hvalid, hspeed⟩ := h.reported j hold
    refine ⟨last, by simpa [saveFeedback, exchange, hij] using hlast, hvalid, ?_⟩
    show (if fb.valid then update w.measured i _ else w.measured) j =
      reportedSpeed w.controller.cfg j last
    rw [← hspeed]
    split
    · rw [update_of_ne hij]
    · rfl

theorem ReportsSound.brakeFeedback (h : ReportsSound w) (i : Fin 4) :
    ReportsSound (brakeFeedback env w i) :=
  h.feedback i .brake

/-! ### The operations -/

theorem ReportsSound.brake (h : ReportsSound w) (i : Fin 4) :
    ReportsSound (wheelsBrake env w i) := by
  rw [wheelsBrake]
  split
  · exact h.congr ⟨rfl, rfl, rfl, rfl⟩
  · refine ReportsSound.brakeFeedback ?_ i
    exact h.congr ⟨rfl, rfl, rfl, rfl⟩

theorem ReportsSound.brakeAll (h : ReportsSound w) : ReportsSound (brakeAll env w) :=
  List.foldlRecOn wheelIndices _ h fun _ hw i _ => hw.brake i

theorem ReportsSound.restart (h : ReportsSound w) :
    ReportsSound (wheelsRestartGyroCalibration env w) := by
  have hstart : ReportsSound { w with trace := .restarted :: w.trace } :=
    h.congr ⟨rfl, rfl, rfl, rfl⟩
  exact hstart.brakeAll.congr ⟨rfl, rfl, rfl, rfl⟩

theorem ReportsSound.setpoint (h : ReportsSound w) (i : Fin 4) (rate : ℝ) :
    ReportsSound (sendSpeed env w i rate).1 := by
  rw [sendSpeed]
  split
  · exact h
  · exact h.feedback i _

theorem ReportsSound.setpoints (left right : ℝ) (is : List (Fin 4)) (h : ReportsSound w) :
    ReportsSound (sendSpeeds env left right is w) := by
  induction is generalizing w with
  | nil => exact h
  | cons i is ih =>
    have htarget : ReportsSound { w with target := update w.target i (sideRate left right i) } :=
      h.congr ⟨rfl, rfl, rfl, rfl⟩
    have hsent : ReportsSound (sendSpeed env
        { w with target := update w.target i (sideRate left right i) } i
        (sideRate left right i)).1 := htarget.setpoint i _
    rw [sendSpeeds]
    dsimp only
    split
    · split
      · exact hsent.brakeAll
      · exact ih hsent
    · exact ih htarget

theorem ReportsSound.brakeOnline (h : ReportsSound w) (now : UInt64) :
    ReportsSound (brakeOnline env w now) := by
  have hstart : ReportsSound { w with nextUpdateUs := now + wheelControlUs } :=
    h.congr ⟨rfl, rfl, rfl, rfl⟩
  refine List.foldlRecOn wheelIndices _ hstart ?_
  intro w hw i _
  split
  · exact hw
  · exact hw.brakeFeedback i

theorem ReportsSound.update (h : ReportsSound w) : ReportsSound (wheelsUpdate env w) := by
  have hread : ReportsSound { w with ticks := w.ticks + 1 } := h.congr ⟨rfl, rfl, rfl, rfl⟩
  by_cases hdue : UpdateDue env w
  · rw [wheelsUpdate_due hdue, advanceMotion]
    dsimp only
    split
    · exact ReportsSound.brakeAll (hread.congr ⟨rfl, rfl, rfl, rfl⟩)
    next controller left right htargets =>
      refine ReportsSound.setpoints left right wheelIndices (hread.congr ⟨?_, rfl, rfl, rfl⟩)
      exact updateTargets_cfg htargets
  · rcases wheelsUpdate_not_due hdue with hquiet | ⟨-, hbrake⟩
    · rw [hquiet]
      exact hread
    · rw [hbrake]
      exact hread.brakeOnline _

theorem ReportsSound.setVelocity (h : ReportsSound w) (linear angular : ℝ) :
    ReportsSound (wheelsSetVelocity env w linear angular).1 := by
  rcases wheelsSetVelocity_cases env w linear angular with hrefused | ⟨-, -, left, right, hstart⟩
  · rw [hrefused]
    exact h.congr ⟨rfl, rfl, rfl, rfl⟩
  · rw [hstart]
    exact h.congr ⟨rfl, rfl, rfl, rfl⟩

theorem ReportsSound.retryOffline (h : ReportsSound w) :
    ReportsSound (wheelsRetryOffline env w) := by
  rw [wheelsRetryOffline]
  split
  · exact h
  · refine List.foldlRecOn wheelIndices _ h ?_
    intro w hw i _
    dsimp only
    split
    · exact hw
    · split
      · exact hw.congr ⟨rfl, rfl, rfl, rfl⟩
      · refine ReportsSound.brakeFeedback ?_ i
        exact hw.congr ⟨rfl, rfl, rfl, rfl⟩

end Invariant

/-! ### Configurations -/

section Configurations

variable {env : Bus} {w : Wheels ℝ}

/-- Parameters that pass `glide_init` with 200 RPM at most. -/
theorem inForce_of_rpm {p : CalibrationParameters ℝ} {g : Glide ℝ}
    (hinit : glideInit (glideConfigOf p) = some g) (hrpm : p.rpmMax ≤ 200) :
    InForce (glideConfigOf p) := by
  refine ⟨(glideInit_eq_some_iff.mp hinit).1, ?_⟩
  have hpi : (0 : ℝ) < twoPi := twoPi_pos
  show p.rpmMax * twoPi / 60 / fabs (wheelSpeedScale : ℝ) ≤ 200 * twoPi / 60
  rw [fabs_wheelSpeedScale, div_one]
  gcongr

theorem rpmMax_le_of_not_refused {p : CalibrationParameters ℝ} (h : parametersRefused p = false) :
    p.rpmMax ≤ 200 := by
  simp only [parametersRefused, Bool.or_eq_false_iff, decide_eq_false_iff_not, not_lt] at h
  tauto

/-- The speeds kept so far are the ones the same replies give with the new radius. -/
theorem ReportsSound.rescaled (h : ReportsSound w) {cfg : GlideConfig ℝ} (hcfg : InForce cfg)
    (motorRamp : UInt8) :
    ReportsSound { w with
      ticks := w.ticks + 1, controller := glideAtRest cfg
      measured := fun i => w.measured i * (cfg.radius / w.controller.cfg.radius), motorRamp } := by
  refine ⟨hcfg, ?_⟩
  intro i hi
  obtain ⟨fb, hfb, hvalid, hspeed⟩ := h.reported i hi
  refine ⟨fb, hfb, hvalid, ?_⟩
  have hradius : w.controller.cfg.radius ≠ 0 := h.config.accepted.radius.ne'
  show w.measured i * (cfg.radius / w.controller.cfg.radius) = reportedSpeed cfg i fb
  rw [hspeed, reportedSpeed, reportedSpeed]
  field_simp

theorem ReportsSound.configure (h : ReportsSound w) (p : CalibrationParameters ℝ) :
    ReportsSound (wheelsConfigureCalibration env w p).1 := by
  rw [wheelsConfigureCalibration]
  dsimp only
  split
  · exact h.congr ⟨rfl, rfl, rfl, rfl⟩
  · split
    · exact h.congr ⟨rfl, rfl, rfl, rfl⟩
    next htaken =>
      split
      · exact h.congr ⟨rfl, rfl, rfl, rfl⟩
      next controller hinit =>
        obtain rfl := glideInit_eq_some hinit
        have hcfg := inForce_of_rpm hinit (rpmMax_le_of_not_refused (by simpa using htaken))
        have hscaled := h.rescaled hcfg (toUInt8 p.ramp)
        split
        · refine ReportsSound.restart ?_
          exact hscaled.congr ⟨rfl, rfl, rfl, rfl⟩
        · exact hscaled

/-! ### Start-up -/

theorem robotConfig_inForce : InForce robotConfig :=
  ⟨(glideInit_eq_some_iff.mp glideInit_robotConfig).1, robotConfig_wheelMax.le⟩

/-- The start-up of the controller, with a saved configuration or without. -/
theorem beginController_sound (header : Option (CalibrationParameters ℝ))
    (hheader : ∀ p ∈ header, p.rpmMax ≤ 200) :
    ReportsSound (beginController header (Wheels.initial : Wheels ℝ)).1 := by
  rw [beginController, glideInit_robotConfig]
  dsimp only
  split
  · exact .of_not_valid robotConfig_inForce fun _ => rfl
  next saved =>
    split
    · exact .of_not_valid robotConfig_inForce fun _ => rfl
    next controller hinit =>
      obtain rfl := glideInit_eq_some hinit
      exact .of_not_valid (inForce_of_rpm hinit (hheader saved rfl)) fun _ => rfl

theorem reportsSound_begin (env : Bus) (image : Image) {header : Option (CalibrationParameters ℝ)}
    (hheader : ∀ p ∈ header, p.rpmMax ≤ 200) : ReportsSound (wheelsBegin env image header) := by
  have hcontroller := beginController_sound header hheader
  rw [wheelsBegin]
  split
  · exact hcontroller
  · refine List.foldlRecOn wheelIndices _ hcontroller ?_
    intro w hw i _
    obtain ⟨bus, online, braked, queries, trace, hprobe⟩ := beginWheel_frame env image w i
    rw [hprobe]
    exact hw.congr ⟨rfl, rfl, rfl, rfl⟩

/-! ### Runs -/

/-- The step lemma. -/
theorem ReportsSound.step (h : ReportsSound w) (op : WheelOp ℝ) :
    ReportsSound (wheelStep env w op) := by
  cases op with
  | setVelocity linear angular => exact h.setVelocity linear angular
  | update => exact h.update
  | restartGyroCalibration => exact h.restart
  | configureCalibration p => exact h.configure p
  | retryOffline => exact h.retryOffline
  | brakeAll => exact h.brakeAll
  | observeGyro sample nowUs valid => exact h.congr ⟨rfl, rfl, rfl, rfl⟩

/-- The run lemma. -/
theorem ReportsSound.run (h : ReportsSound w) (ops : List (WheelOp ℝ)) :
    ReportsSound (ops.foldl (wheelStep env) w) := by
  induction ops generalizing w with
  | nil => exact h
  | cons op ops ih => exact ih (h.step op)

end Configurations
