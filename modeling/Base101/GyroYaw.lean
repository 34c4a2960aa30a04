/-
The yaw-rate estimator (`gyro_yaw.c`).

A stationary window measures the bias; after it, `gyroYawObserve` filters the
rate and `gyroYawGet` reports it while the last sample is fresh.  Calibration is
given up only by `gyroYawBegin`.

* `observe_eq` — what a sample does, branch by branch;
* `afterGap_iff`, `addToWindow_fields` — when it comes after a gap, and what it adds to a window.
-/
import Base101.Double

/-- `gyro_yaw_config_t`. -/
structure GyroYawConfig (F : Type) where
  windowUs : UInt64
  maxGapUs : UInt64
  minSamples : UInt32
  maxBias : F
  maxStddev : F
  lpfHz : F
deriving DecidableEq

/-- `gyro_yaw_t`. -/
structure GyroYaw (F : Type) where
  cfg : GyroYawConfig F
  windowStartUs : UInt64
  lastSampleUs : UInt64
  samples : UInt32
  rejectedWindows : UInt32
  mean : F
  m2 : F
  bias : F
  rate : F
  calibrated : Bool
  sampleValid : Bool
  windowStarted : Bool
deriving DecidableEq

variable {F : Type} [Double F]

open Double

def gyroYawBegin (cfg : GyroYawConfig F) : GyroYaw F :=
  { cfg, windowStartUs := 0, lastSampleUs := 0, samples := 0, rejectedWindows := 0
    mean := 0, m2 := 0, bias := 0, rate := 0
    calibrated := false, sampleValid := false, windowStarted := false }

def restartWindow (g : GyroYaw F) : GyroYaw F :=
  { g with samples := 0, mean := 0, m2 := 0, windowStarted := false }

/-- The sample is added to the window: Welford's mean and squared deviation. -/
def addToWindow (g : GyroYaw F) (nowUs : UInt64) (rawRate : F) : GyroYaw F :=
  let g := if !g.windowStarted then { g with windowStartUs := nowUs, windowStarted := true } else g
  let samples := g.samples + 1
  let delta := rawRate - g.mean
  let mean := g.mean + delta / (samples.toNat : F)
  { g with samples, mean, m2 := g.m2 + delta * (rawRate - mean) }

/-- The test of a full window. -/
def windowRejected (g : GyroYaw F) : Bool :=
  g.samples < g.cfg.minSamples || g.cfg.maxBias < fabs g.mean ||
    -- with a single sample the deviation is infinite
    !(1 < g.samples) || g.cfg.maxStddev < sqrt (g.m2 / ((g.samples - 1).toNat : F))

/-- The filter step of a calibrated estimator. -/
def filterRate (g : GyroYaw F) (rawRate : F) (gap : Bool) (dt : F) : GyroYaw F :=
  let corrected := rawRate - g.bias
  let alpha := if gap || g.cfg.lpfHz ≤ 0 then 1
    else -expm1 (-6.283185307179586 * g.cfg.lpfHz * dt)
  { g with rate := g.rate + alpha * (corrected - g.rate) }

def gyroYawObserve (g : GyroYaw F) (nowUs : UInt64) (rawRate : F) (valid stationary : Bool) :
    GyroYaw F :=
  let gap := !g.sampleValid || nowUs ≤ g.lastSampleUs || g.cfg.maxGapUs < nowUs - g.lastSampleUs
  let dt : F := if !gap then ((nowUs - g.lastSampleUs).toNat : F) / 1e6 else 0
  if !(valid && isfinite rawRate) then
    -- a bad sample costs the window, never the calibration
    let g := { g with sampleValid := false }
    if !g.calibrated then restartWindow g else g
  else
    let g := { g with lastSampleUs := nowUs, sampleValid := true }
    if !g.calibrated then
      if !stationary then restartWindow g
      else
        let g := addToWindow (if gap then restartWindow g else g) nowUs rawRate
        if nowUs - g.windowStartUs < g.cfg.windowUs then g
        else if windowRejected g then
          restartWindow { g with rejectedWindows := g.rejectedWindows + 1 }
        -- the sample that completes the window is also the first one filtered
        else filterRate { g with bias := g.mean, calibrated := true } rawRate true dt
    else filterRate g rawRate gap dt

def gyroYawGet (g : GyroYaw F) (nowUs : UInt64) : Option F :=
  if !g.calibrated || !g.sampleValid || nowUs < g.lastSampleUs ||
      g.cfg.maxGapUs < nowUs - g.lastSampleUs then none
  else some g.rate

/-! ### What a sample changes -/

variable {g : GyroYaw F} {nowUs : UInt64} {rawRate : F} {valid stationary : Bool}

/-- A calibrated estimator stays calibrated. -/
theorem gyroYawObserve_calibrated (h : g.calibrated) :
    (gyroYawObserve g nowUs rawRate valid stationary).calibrated := by
  rw [gyroYawObserve]
  dsimp only
  -- every branch that restarts a window asks for an uncalibrated estimator
  split_ifs <;> simp_all [filterRate]

omit [Double F] in
/-- Only a calibrated estimator reports a rate. -/
theorem calibrated_of_gyroYawGet {rate : F} (h : gyroYawGet g nowUs = some rate) :
    g.calibrated := by
  rw [gyroYawGet] at h
  split_ifs at h with hbad
  by_contra hcal
  simp [hcal] at hbad

/-! ### The calls as samples -/

/-- The arguments of one `gyro_yaw_observe`. -/
structure GyroSample (F : Type) where
  nowUs : UInt64
  rawRate : F
  valid : Bool
  stationary : Bool

def GyroSample.observe (g : GyroYaw F) (s : GyroSample F) : GyroYaw F :=
  gyroYawObserve g s.nowUs s.rawRate s.valid s.stationary

/-- The later sample follows the earlier one after an allowed time. -/
def WithinGap (maxGapUs : UInt64) (earlier later : GyroSample F) : Prop :=
  earlier.nowUs.toNat < later.nowUs.toNat ∧
    later.nowUs.toNat - earlier.nowUs.toNat ≤ maxGapUs.toNat

/-- The sample comes after a gap. -/
def afterGap (g : GyroYaw F) (s : GyroSample F) : Bool :=
  !g.sampleValid || s.nowUs ≤ g.lastSampleUs || g.cfg.maxGapUs < s.nowUs - g.lastSampleUs

/-- The state with the sample recorded, before the window is looked at. -/
def recorded (g : GyroYaw F) (s : GyroSample F) : GyroYaw F :=
  { g with lastSampleUs := s.nowUs, sampleValid := true }

/-- The window that a quiet sample belongs to, with the sample in it. -/
def extended (g : GyroYaw F) (s : GyroSample F) : GyroYaw F :=
  addToWindow (if afterGap g s then restartWindow (recorded g s) else recorded g s)
    s.nowUs s.rawRate

/-- The filter's time step: zero over a gap. -/
def elapsedSeconds (g : GyroYaw F) (s : GyroSample F) : F :=
  if !afterGap g s then ((s.nowUs - g.lastSampleUs).toNat : F) / 1e6 else 0

/-- The window with a full test passed: the bias is set, and the sample filtered. -/
def calibratedBy (g : GyroYaw F) (s : GyroSample F) : GyroYaw F :=
  filterRate { extended g s with bias := (extended g s).mean, calibrated := true } s.rawRate true
    (elapsedSeconds g s)

section Sample

variable {s : GyroSample F}

/-- A call, in the words above. -/
theorem observe_eq (g : GyroYaw F) (s : GyroSample F) : s.observe g =
    if !(s.valid && isfinite s.rawRate) then
      if !g.calibrated then restartWindow { g with sampleValid := false }
      else { g with sampleValid := false }
    else if !g.calibrated then
      if !s.stationary then restartWindow (recorded g s)
      else if s.nowUs - (extended g s).windowStartUs < (extended g s).cfg.windowUs then
        extended g s
      else if windowRejected (extended g s) then
        restartWindow
          { extended g s with rejectedWindows := (extended g s).rejectedWindows + 1 }
      else calibratedBy g s
    else filterRate (recorded g s) s.rawRate (afterGap g s) (elapsedSeconds g s) := rfl

omit [Double F] in
/-- The gap is that between the sample and the last one recorded. -/
theorem afterGap_iff {last : GyroSample F} (hvalid : g.sampleValid = true)
    (hlast : g.lastSampleUs = last.nowUs) :
    afterGap g s = false ↔ WithinGap g.cfg.maxGapUs last s := by
  rw [afterGap, hvalid, hlast, WithinGap]
  simp only [Bool.not_true, Bool.false_or, Bool.or_eq_false_iff, decide_eq_false_iff_not,
    UInt64.not_le, UInt64.not_lt]
  constructor
  · rintro ⟨hlater, hgap⟩
    rw [UInt64.le_iff_toNat_le, UInt64.toNat_sub_of_le _ _ (UInt64.le_of_lt hlater)] at hgap
    exact ⟨UInt64.lt_iff_toNat_lt.mp hlater, hgap⟩
  · rintro ⟨hlater, hgap⟩
    have hlt := UInt64.lt_iff_toNat_lt.mpr hlater
    refine ⟨hlt, ?_⟩
    rwa [UInt64.le_iff_toNat_le, UInt64.toNat_sub_of_le _ _ (UInt64.le_of_lt hlt)]

/-- The fields of the window after a sample is added. -/
theorem addToWindow_fields (g : GyroYaw F) (nowUs : UInt64) (rawRate : F) :
    (addToWindow g nowUs rawRate).samples = g.samples + 1 ∧
    (addToWindow g nowUs rawRate).mean =
      g.mean + (rawRate - g.mean) / ((g.samples + 1).toNat : F) ∧
    (addToWindow g nowUs rawRate).m2 =
      g.m2 + (rawRate - g.mean) * (rawRate - (addToWindow g nowUs rawRate).mean) ∧
    (addToWindow g nowUs rawRate).windowStarted = true ∧
    (addToWindow g nowUs rawRate).windowStartUs =
      (if g.windowStarted then g.windowStartUs else nowUs) ∧
    (addToWindow g nowUs rawRate).cfg = g.cfg ∧
    (addToWindow g nowUs rawRate).lastSampleUs = g.lastSampleUs ∧
    (addToWindow g nowUs rawRate).sampleValid = g.sampleValid ∧
    (addToWindow g nowUs rawRate).calibrated = g.calibrated := by
  unfold addToWindow
  by_cases h : g.windowStarted = true
  · simp [h]
  · rw [Bool.not_eq_true] at h
    simp [h]

/-- The window is that of a recorded sample. -/
theorem extended_keeps (g : GyroYaw F) (s : GyroSample F) :
    (extended g s).cfg = g.cfg ∧ (extended g s).calibrated = g.calibrated ∧
      (extended g s).sampleValid = true ∧ (extended g s).lastSampleUs = s.nowUs := by
  obtain ⟨-, -, -, -, -, hcfg, hlast, hvalid, hcal⟩ := addToWindow_fields
    (if afterGap g s then restartWindow (recorded g s) else recorded g s) s.nowUs s.rawRate
  rw [extended, hcfg, hlast, hvalid, hcal]
  split_ifs
  · exact ⟨rfl, rfl, rfl, rfl⟩
  · exact ⟨rfl, rfl, rfl, rfl⟩

theorem extended_cfg (g : GyroYaw F) (s : GyroSample F) : (extended g s).cfg = g.cfg :=
  (extended_keeps g s).1

theorem extended_calibrated (g : GyroYaw F) (s : GyroSample F) :
    (extended g s).calibrated = g.calibrated :=
  (extended_keeps g s).2.1

end Sample
