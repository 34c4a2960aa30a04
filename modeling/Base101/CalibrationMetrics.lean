/-
Figures measured during a calibration trial (`calibration_metrics.c`).

`calibrationMetricsObserve` is called for every IMU sample while a measurement
is active.  Only the interval between two valid samples, at most 50 ms apart,
is integrated; everything else counts as a gap.
-/
import Base101.Double

/-- `calibration_metrics_t`. -/
structure CalibrationMetrics (F : Type) where
  startUs : UInt64
  lastUs : UInt64
  lastKnockUs : UInt64
  motionStartUs : UInt64
  samples : UInt32
  gaps : UInt32
  knocks : UInt32
  active : Bool
  previousValid : Bool
  previousSteady : Bool
  bodyResponse : Bool
  baseline : Fin 3 → F
  previousAccel : Fin 3 → F
  previousGyro : F
  previousEncoder : F
  previousVx : F
  previousShapedVx : F
  gyroYaw : F
  encoderYaw : F
  distance : F
  steadyGyro : F
  steadyEncoder : F
  steadyS : F
  accelPeak : F
  jerkPeak : F
  accelEnergy : F
  trackingEnergy : F
  elapsedS : F
  trackingS : F
  responseS : F
  stopDistance : F
  stopS : F

/-- The arguments of `calibration_metrics_observe`. -/
structure MetricsSample (F : Type) where
  accel : Fin 3 → F
  gyro : F
  vx : F
  encoder : F
  requestedVx : F
  requestedWz : F
  shapedVx : F
  shapedWz : F
  icr : F
  valid : Bool
  moving : Bool

variable {F : Type} [Double F]

open Double

/-- The initial value of the static. -/
def CalibrationMetrics.zero : CalibrationMetrics F :=
  { startUs := 0, lastUs := 0, lastKnockUs := 0, motionStartUs := 0, samples := 0, gaps := 0
    knocks := 0, active := false, previousValid := false, previousSteady := false
    bodyResponse := false, baseline := fun _ => 0, previousAccel := fun _ => 0
    previousGyro := 0, previousEncoder := 0, previousVx := 0, previousShapedVx := 0
    gyroYaw := 0, encoderYaw := 0, distance := 0, steadyGyro := 0, steadyEncoder := 0
    steadyS := 0, accelPeak := 0, jerkPeak := 0, accelEnergy := 0, trackingEnergy := 0
    elapsedS := 0, trackingS := 0, responseS := 0, stopDistance := 0, stopS := 0 }

def calibrationMetricsBegin (now : UInt64) (accel : Fin 3 → F) : CalibrationMetrics F :=
  { CalibrationMetrics.zero with
    active := true, bodyResponse := true, startUs := now, responseS := -1, baseline := accel }

/-- The sample is one the metrics can use. -/
def MetricsSample.usable (x : MetricsSample F) : Bool :=
  x.valid && isfinite x.gyro && isfinite x.vx && isfinite x.encoder &&
    ([0, 1, 2] : List (Fin 3)).all fun i => isfinite (x.accel i)

/-- Seconds since the last sample; 0 without one. -/
def CalibrationMetrics.dt (m : CalibrationMetrics F) (now : UInt64) : F :=
  if m.lastUs ≠ 0 ∧ m.lastUs < now then ((now - m.lastUs).toNat : F) / 1e6 else 0

/-- A turn in place that has settled, two seconds into the motion. -/
def CalibrationMetrics.steady (m : CalibrationMetrics F) (now : UInt64) (x : MetricsSample F) :
    Bool :=
  x.moving && fabs x.requestedVx < 0.001 && 0.05 < fabs x.requestedWz &&
    fabs (x.shapedWz - x.requestedWz) < fabs x.requestedWz * 0.05 &&
    m.motionStartUs != 0 && 2000000 ≤ now - m.motionStartUs

/-- The sum of squares over the three axes. -/
def sumSquares (d : Fin 3 → F) : F :=
  ([0, 1, 2] : List (Fin 3)).foldl (fun sum i => sum + d i * d i) 0

/-- The acceleration the command and the rotation do not account for. -/
def CalibrationMetrics.residual (m : CalibrationMetrics F) (x : MetricsSample F) (dt : F) : F :=
  -- the IMU sits 40 mm off the axis; no assumption about its mounting in the plane
  let angularAccel := fabs (x.gyro - m.previousGyro) / dt
  let commandedAccel := fabs (x.shapedVx - m.previousShapedVx) / dt
  fmax 0 (sqrt (sumSquares fun i => x.accel i - m.baseline i) - commandedAccel -
    0.04 * (angularAccel + x.gyro * x.gyro))

/-- The integrals over an interval. -/
def metricsIntegrate (m : CalibrationMetrics F) (x : MetricsSample F) (steady : Bool) (dt : F) :
    CalibrationMetrics F :=
  let gyroYaw := (x.gyro + m.previousGyro) * 0.5 * dt
  let encoderYaw := (x.encoder + m.previousEncoder) * 0.5 * dt
  let settled := steady && m.previousSteady
  { m with
    gyroYaw := m.gyroYaw + gyroYaw
    encoderYaw := m.encoderYaw + encoderYaw
    distance := m.distance + (x.vx + m.previousVx) * 0.5 * dt
    steadyGyro := if settled then m.steadyGyro + gyroYaw else m.steadyGyro
    steadyEncoder := if settled then m.steadyEncoder + encoderYaw else m.steadyEncoder
    steadyS := if settled then m.steadyS + dt else m.steadyS }

/-- Peaks, energies and knocks of an interval. -/
def metricsShake (m : CalibrationMetrics F) (now : UInt64) (x : MetricsSample F) (dt : F) :
    CalibrationMetrics F :=
  let residual := m.residual x dt
  let jerk := sqrt (sumSquares fun i => (x.accel i - m.previousAccel i) / dt)
  let error := if 0.01 < fabs x.requestedWz then x.encoder - x.shapedWz * x.icr
    else x.vx - x.shapedVx
  let knock : Bool := 0.8 < residual && (m.lastKnockUs == 0 || 80000 < now - m.lastKnockUs)
  { m with
    accelPeak := fmax m.accelPeak residual
    jerkPeak := fmax m.jerkPeak jerk
    accelEnergy := m.accelEnergy + residual * residual * dt
    elapsedS := m.elapsedS + dt
    trackingEnergy := if x.moving then m.trackingEnergy + error * error * dt else m.trackingEnergy
    trackingS := if x.moving then m.trackingS + dt else m.trackingS
    knocks := if knock then m.knocks + 1 else m.knocks
    lastKnockUs := if knock then now else m.lastKnockUs }

/-- The response has reached nine tenths of the request. -/
def CalibrationMetrics.responded (m : CalibrationMetrics F) (x : MetricsSample F) : Bool :=
  let forward : Bool := 0.001 < fabs x.requestedVx
  let req := if forward then x.requestedVx else x.requestedWz
  let measured := if forward then x.vx else if m.bodyResponse then x.gyro else x.encoder / x.icr
  x.moving && m.responseS < 0 && m.motionStartUs != 0 && 0.001 < fabs req && 0.9 ≤ measured / req

/-- Response time and stopping distance. -/
def metricsRespond (m : CalibrationMetrics F) (now : UInt64) (x : MetricsSample F) (dt : F) :
    CalibrationMetrics F :=
  let stopping := x.moving && x.requestedVx == 0 && x.requestedWz == 0
  { m with
    responseS := if m.responded x then ((now - m.motionStartUs).toNat : F) / 1e6 else m.responseS
    stopDistance := if stopping then m.stopDistance + fabs (x.vx + m.previousVx) * 0.5 * dt
      else m.stopDistance
    stopS := if stopping then m.stopS + dt else m.stopS }

def calibrationMetricsObserve (m : CalibrationMetrics F) (now : UInt64) (x : MetricsSample F) :
    CalibrationMetrics F :=
  if !m.active then m
  else if !x.usable then { m with gaps := m.gaps + 1, previousValid := false }
  else
    let m := if m.motionStartUs = 0 ∧ x.moving then { m with motionStartUs := now } else m
    let dt := m.dt now
    let steady := m.steady now x
    let interval : Bool := m.previousValid && 0 < dt && dt ≤ 0.05
    let m := if interval then
        metricsRespond (metricsShake (metricsIntegrate m x steady dt) now x dt) now x dt
      else if m.lastUs ≠ 0 then { m with gaps := m.gaps + 1 }
      else m
    { m with
      samples := m.samples + 1, lastUs := now, previousValid := true, previousSteady := steady
      previousShapedVx := x.shapedVx, previousGyro := x.gyro, previousEncoder := x.encoder
      previousVx := x.vx, previousAccel := x.accel }
