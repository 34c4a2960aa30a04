/-
The four drive wheels (`wheels.c`).

The module's statics are one record, passed along explicitly.  What comes from
outside is read off tapes: the clock, the replies of the motors and the answers
to mode queries; each function reads on where the last one stopped.  A trace,
latest event first, records the frames sent and the calls that stop the robot.

`wheelsBegin` is compiled into two images, the ROS node and the calibration
firmware, and may have a saved configuration compiled in.  Mode writes, delays and
the messages on the status line leave no mark on the statics and are left out.
-/
import Base101.Glide
import Base101.GyroYaw
import Base101.Protocol

/-! ### `robot.h` -/

/-- The fields of `wheel_cfg_t` that drive and measure. -/
structure WheelCfg where
  direction : ℤ
  left : Bool

/-- `WHEELS`: front left, front right, back left, back right. -/
def wheelTable : Fin 4 → WheelCfg
  | 0 => { direction := 1, left := true }
  | 1 => { direction := -1, left := false }
  | 2 => { direction := 1, left := true }
  | 3 => { direction := -1, left := false }

/-- The order of every loop over the wheels. -/
def wheelIndices : List (Fin 4) := [0, 1, 2, 3]

/-- `DDSM210_MAX_SPEED_RAW`: 210 RPM in units of 0.1 RPM. -/
def ddsm210MaxSpeedRaw : ℤ := 2100
/-- `DDSM210_MODE_VELOCITY`. -/
def ddsm210ModeVelocity : ℤ := 2
/-- `1000000u / WHEEL_CONTROL_HZ`. -/
def wheelControlUs : UInt64 := 20000
def odomFeedbackMaxAgeUs : UInt64 := 100000
/-- `1000000u / IMU_SAMPLE_HZ`. -/
def imuSampleUs : UInt64 := 4807

section Constants

variable {F : Type} [Double F]

def twoPi : F := 6.283185307179586
def wheelSpeedScale : F := 1.0
def odomEncoderSign : F := 1.0
def gyroZSign : F := 1.0

end Constants

/-! ### The outside -/

/-- `ddsm210_feedback_t`, and whether it was received. -/
structure MotorReply where
  received : Bool
  feedback1 : Int16
  errorCode : UInt8
  temperature : UInt8
deriving DecidableEq

/-- The reply is one the code takes as a measurement. -/
def MotorReply.valid (fb : MotorReply) : Bool := fb.received && fb.errorCode == 0

/-- `imu_sample_t`. -/
structure ImuSample (F : Type) where
  accel : Fin 3 → F
  gyro : Fin 3 → F
  tempC : F

/-- The tapes of the wheels. -/
structure Bus where
  /-- The readings of `time_us_64`, in order. -/
  clock : ℕ → UInt64
  clock_mono : ∀ i j, i ≤ j → clock i ≤ clock j
  /-- The replies to the frames with feedback, in order. -/
  reply : ℕ → MotorReply
  /-- The answers of `ddsm210_get_mode`, in order; negative for none. -/
  mode : ℕ → ℤ
  /-- There is a PIO state machine for the wheel's port. -/
  port : Fin 4 → Bool

/-- A frame to a motor. -/
inductive Frame
  | brake
  | velocity (units : ℤ) (ramp : UInt8)
deriving DecidableEq

/-- What the trace records. -/
inductive WheelEvent
  /-- A frame that sets the motion of one wheel. -/
  | sent (index : Fin 4) (frame : Frame)
  /-- A call of `wheels_brake`. -/
  | braked (index : Fin 4)
  /-- A call of `wheels_restart_gyro_calibration`. -/
  | restarted
  /-- A command that `wheels_set_velocity` accepted, at the time its caller reads. -/
  | commanded (nowUs : UInt64)
deriving DecidableEq

/-- The statics of `wheels.c`. -/
structure Wheels (F : Type) where
  bus : Fin 4 → Bool
  online : Fin 4 → Bool
  target : Fin 4 → F
  requestedLinear : F
  requestedAngular : F
  controller : Glide F
  gyro : GyroYaw F
  gyroConfig : GyroYawConfig F
  braked : Fin 4 → Bool
  motionEnabled : Bool
  motorRamp : UInt8
  lastUpdateUs : UInt64
  nextUpdateUs : UInt64
  measured : Fin 4 → F
  measuredUs : Fin 4 → UInt64
  measuredValid : Fin 4 → Bool
  motorError : Fin 4 → UInt8
  motorTemperature : Fin 4 → UInt8
  /-- Clock readings, frames with feedback and mode queries so far. -/
  ticks : ℕ
  frames : ℕ
  queries : ℕ
  trace : List WheelEvent
  /-- The last reply read for each wheel. -/
  lastReply : Fin 4 → Option MotorReply

/-- The last frame sent to a wheel. -/
def lastFrame (trace : List WheelEvent) (i : Fin 4) : Option Frame :=
  trace.findSome? fun
    | .sent j frame => if j = i then some frame else none
    | _ => none

section Model

variable {F : Type} [Double F]

open Double Function

/-- The initial value of the statics. -/
def Wheels.initial : Wheels F :=
  { bus := fun _ => false, online := fun _ => false, target := fun _ => 0
    requestedLinear := 0, requestedAngular := 0
    controller := glideAtRest
      { radius := 0, separation := 0, icr := 0, wheelMax := 0, vxMax := 0, wzMax := 0, axMax := 0
        alphaMax := 0, jxMax := 0, jalphaMax := 0, yawKp := 0, yawKi := 0, correctionMax := 0
        deadband := 0, correctionAccel := 0, correctionJerk := 0, yawFeedback := false }
    gyro := gyroYawBegin
      { windowUs := 0, maxGapUs := 0, minSamples := 0, maxBias := 0, maxStddev := 0, lpfHz := 0 }
    gyroConfig :=
      { windowUs := 15000000, maxGapUs := 50000, minSamples := 750, maxBias := 0.05
        maxStddev := 0.003, lpfHz := 20.0 }
    braked := fun _ => false, motionEnabled := false, motorRamp := 1
    lastUpdateUs := 0, nextUpdateUs := 0
    measured := fun _ => 0, measuredUs := fun _ => 0, measuredValid := fun _ => false
    motorError := fun _ => 0, motorTemperature := fun _ => 0
    ticks := 0, frames := 0, queries := 0, trace := [], lastReply := fun _ => none }

variable (env : Bus)

/-- `time_us_64`. -/
def readClock (w : Wheels F) : UInt64 × Wheels F :=
  (env.clock w.ticks, { w with ticks := w.ticks + 1 })

/-- `ddsm210_get_mode`. -/
def getMode (w : Wheels F) : ℤ × Wheels F :=
  (env.mode w.queries, { w with queries := w.queries + 1 })

/-- A frame with feedback: `ddsm210_set_velocity` or `ddsm210_brake_feedback`. -/
def exchange (w : Wheels F) (i : Fin 4) (frame : Frame) : MotorReply × Wheels F :=
  (env.reply w.frames, { w with
    frames := w.frames + 1, trace := .sent i frame :: w.trace
    lastReply := update w.lastReply i (some (env.reply w.frames)) })

/-- `ddsm210_brake`: the reply is not read. -/
def sendBrake (w : Wheels F) (i : Fin 4) : Wheels F :=
  { w with trace := .sent i .brake :: w.trace }

/-- The clock is read once more for a valid measurement. -/
def saveFeedback (w : Wheels F) (i : Fin 4) (fb : MotorReply) : Wheels F :=
  { w with
    motorError := if fb.received then update w.motorError i fb.errorCode else w.motorError
    motorTemperature :=
      if fb.received then update w.motorTemperature i fb.temperature else w.motorTemperature
    measuredValid := update w.measuredValid i fb.valid
    -- no signed zero from mirrored motors
    measured := if fb.valid then
        update w.measured i (if fb.feedback1 = 0 then 0.0
          else ((fb.feedback1.toInt : ℤ) : F) * (twoPi / 600.0) * ((wheelTable i).direction : F) *
            w.controller.cfg.radius)
      else w.measured
    measuredUs := if fb.valid then update w.measuredUs i (env.clock w.ticks) else w.measuredUs
    ticks := if fb.valid then w.ticks + 1 else w.ticks }

/-- A brake frame, its feedback saved. -/
def brakeFeedback (w : Wheels F) (i : Fin 4) : Wheels F :=
  let sent := exchange env w i .brake
  saveFeedback env sent.2 i sent.1

/-! ### Measurements -/

/-- The wheel has a valid reply within the freshness window. -/
def Wheels.fresh (w : Wheels F) (nowUs : UInt64) (i : Fin 4) : Bool :=
  w.online i && w.measuredValid i && w.measuredUs i ≤ nowUs &&
    nowUs - w.measuredUs i ≤ odomFeedbackMaxAgeUs

/-- The wheels of one side. -/
def sideIndices (left : Bool) : List (Fin 4) :=
  wheelIndices.filter fun i => (wheelTable i).left = left

/-- The mean speed of one side. -/
def sideSpeed (w : Wheels F) (left : Bool) : F :=
  (sideIndices left).foldl (fun sum i => sum + w.measured i * odomEncoderSign) 0 /
    ((sideIndices left).length : F)

def wheelsMeasuredTwist (w : Wheels F) (nowUs : UInt64) : Option (F × F) :=
  if !wheelIndices.all (w.fresh nowUs) then none
  else if sideIndices true = [] ∨ sideIndices false = [] then none
  else some ((sideSpeed w true + sideSpeed w false) * 0.5,
    (sideSpeed w false - sideSpeed w true) / w.controller.cfg.separation)

/-- From the front wheels alone. -/
def wheelsOdometryTwist (w : Wheels F) (nowUs : UInt64) : Option (F × F) :=
  if !([0, 1] : List (Fin 4)).all (w.fresh nowUs) then none
  else
    let left := w.measured 0 * odomEncoderSign
    let right := w.measured 1 * odomEncoderSign
    some ((left + right) * 0.5,
      (right - left) / (w.controller.cfg.separation * w.controller.cfg.icr))

def wheelsYawRate (w : Wheels F) (nowUs : UInt64) : Option F := gyroYawGet w.gyro nowUs

/-- `wheels_yaw_status_t`. -/
structure YawStatus (F : Type) where
  calibrated : Bool
  fresh : Bool
  saturated : Bool
  samples : UInt32
  rejectedWindows : UInt32
  bias : F
  yawRate : F
  correction : F
  elapsedUs : UInt64

def wheelsGetYawStatus (w : Wheels F) (nowUs : UInt64) : YawStatus F :=
  { calibrated := w.gyro.calibrated, fresh := (gyroYawGet w.gyro nowUs).isSome
    saturated := w.controller.saturated, samples := w.gyro.samples
    rejectedWindows := w.gyro.rejectedWindows, bias := w.gyro.bias
    yawRate := (gyroYawGet w.gyro nowUs).getD 0, correction := w.controller.correction
    elapsedUs := if w.gyro.calibrated then w.gyro.cfg.windowUs
      else if w.gyro.windowStarted && w.gyro.windowStartUs ≤ nowUs then nowUs - w.gyro.windowStartUs
      else 0 }

/-- `wheels_drive_status_t`. -/
structure DriveStatus (F : Type) where
  motionEnabled : Bool
  atRest : Bool
  brakeOkMask : ℕ
  requestedVx : F
  requestedWz : F
  shapedVx : F
  shapedWz : F
  commandedRpm : Fin 4 → F
  measuredRpm : Fin 4 → F
  online : Fin 4 → Bool
  fresh : Fin 4 → Bool
  sampleUs : Fin 4 → UInt64
  error : Fin 4 → UInt8
  temperature : Fin 4 → UInt8

/-- The body profiles are at rest. -/
def shapedAtRest (g : Glide F) : Bool :=
  !(1e-4 < fabs g.linear.velocity || 1e-4 < fabs g.yaw.velocity ||
    1e-3 < fabs g.linear.acceleration || 1e-3 < fabs g.yaw.acceleration)

def wheelsGetDriveStatus (w : Wheels F) (nowUs : UInt64) : DriveStatus F :=
  { motionEnabled := w.motionEnabled
    atRest := shapedAtRest w.controller &&
      wheelIndices.all fun i => w.fresh nowUs i && !(0.003 < fabs (w.measured i))
    brakeOkMask := wheelIndices.foldl
      (fun mask i => if w.braked i && w.fresh nowUs i then mask ||| 1 <<< i.val else mask) 0
    requestedVx := w.requestedLinear, requestedWz := w.requestedAngular
    shapedVx := w.controller.linear.velocity, shapedWz := w.controller.yaw.velocity
    commandedRpm := fun i => w.target i * wheelSpeedScale * 60 / twoPi
    measuredRpm := fun i => w.measured i / w.controller.cfg.radius * 60 / twoPi
    online := w.online, fresh := w.fresh nowUs, sampleUs := w.measuredUs
    error := w.motorError, temperature := w.motorTemperature }

/-- The robot stands still for the gyro: fresh wheels, quiet axes and gravity alone. -/
def stationary (w : Wheels F) (sample : ImuSample F) (nowUs : UInt64) (valid : Bool) : Bool :=
  let accel := sqrt (sample.accel 0 * sample.accel 0 + sample.accel 1 * sample.accel 1 +
    sample.accel 2 * sample.accel 2)
  valid && (wheelIndices.all fun i => w.fresh nowUs i && !(0.003 < fabs (w.measured i))) &&
    (([0, 1, 2] : List (Fin 3)).all fun i =>
      isfinite (sample.gyro i) && !(0.1 < fabs (sample.gyro i))) &&
    isfinite accel && !(1 < fabs (accel - 9.80665))

def wheelsObserveGyro (w : Wheels F) (sample : ImuSample F) (nowUs : UInt64) (valid : Bool) :
    Wheels F :=
  let signedZ := gyroZSign * sample.gyro 2
  let gyro := gyroYawObserve w.gyro nowUs signedZ (valid && fabs signedZ < 5)
    (stationary w sample nowUs valid)
  { w with gyro }

/-! ### Braking -/

/-- What `wheels_brake` does for any wheel: motion is disabled, the profiles reset. -/
def stopMotion (w : Wheels F) (i : Fin 4) : Wheels F :=
  { w with
    motionEnabled := false, requestedLinear := 0, requestedAngular := 0
    controller := glideReset w.controller, lastUpdateUs := 0
    nextUpdateUs := env.clock w.ticks + wheelControlUs, ticks := w.ticks + 1
    trace := .braked i :: w.trace }

def wheelsBrake (w : Wheels F) (i : Fin 4) : Wheels F :=
  -- the motion stops even when the wheel cannot be told
  if !w.online i then stopMotion env w i
  else brakeFeedback env
    { stopMotion env w i with target := update w.target i 0.0, braked := update w.braked i true } i

/-- The brake-all loop of every caller. -/
def brakeAll (w : Wheels F) : Wheels F := wheelIndices.foldl (wheelsBrake env) w

def wheelsRestartGyroCalibration (w : Wheels F) : Wheels F :=
  let w := brakeAll env { w with trace := .restarted :: w.trace }
  { w with gyro := gyroYawBegin w.gyroConfig }

/-! ### Motion -/

/-- `allocate`: the wheel rates of the two sides, scaled together to the cap. -/
def wheelsAllocate (cfg : GlideConfig F) (linear angular : F) : Option (F × F) :=
  if !isfinite linear || !isfinite angular then none
  else
    let turn := angular * cfg.separation * 0.5
    let left := (linear - turn) / cfg.radius
    let right := (linear + turn) / cfg.radius
    if !isfinite left || !isfinite right then none
    else
      let peak := fmax (fabs left) (fabs right)
      if cfg.wheelMax < peak then
        let scale := cfg.wheelMax / peak
        some (left * scale, right * scale)
      else some (left, right)

/-- Motion with the allocated request. -/
def startMotion (w : Wheels F) (left right : F) : Wheels F :=
  { w with
    requestedLinear := (left + right) * w.controller.cfg.radius * 0.5
    requestedAngular := (right - left) * w.controller.cfg.radius / w.controller.cfg.separation
    lastUpdateUs := if !w.motionEnabled then 0 else w.lastUpdateUs
    motionEnabled := true, braked := fun _ => false }

/-- `false` leaves the targets unchanged. -/
def wheelsSetVelocity (w : Wheels F) (linear angular : F) : Wheels F × Bool :=
  let now := env.clock w.ticks
  let w := { w with ticks := w.ticks + 1 }
  match wheelsYawRate w now, wheelsMeasuredTwist w now,
    wheelsAllocate w.controller.cfg linear angular with
  | some _, some _, some (left, right) => (startMotion w left right, true)
  | _, _, _ => (w, false)

/-- The setpoint of a wheel in units of 0.1 RPM, capped. -/
def speedUnits (cfg : GlideConfig F) (i : Fin 4) (radPerSec : F) : ℤ :=
  let rpm := radPerSec * ((wheelTable i).direction : F) * wheelSpeedScale * 60.0 / twoPi
  let units := lround (rpm * 10.0)
  let limit := lround (cfg.wheelMax * fabs (wheelSpeedScale : F) * 600 / twoPi)
  let limit := if ddsm210MaxSpeedRaw < limit then ddsm210MaxSpeedRaw else limit
  let units := if limit < units then limit else units
  if units < -limit then -limit else units

def sendSpeed (w : Wheels F) (i : Fin 4) (radPerSec : F) : Wheels F × Bool :=
  if !w.online i then (w, false)
  else
    let sent := exchange env w i (.velocity (speedUnits w.controller.cfg i radPerSec) w.motorRamp)
    let w := saveFeedback env sent.2 i sent.1
    (w, w.measuredValid i)

/-- The rate of the wheel's side. -/
def sideRate (left right : F) (i : Fin 4) : F := if (wheelTable i).left then left else right

/-- The loop of an accepted update: the first motor that fails brakes all. -/
def sendSpeeds (left right : F) : List (Fin 4) → Wheels F → Wheels F
  | [], w => w
  | i :: rest, w =>
    let w := { w with target := update w.target i (sideRate left right i) }
    if w.online i && !w.braked i then
      let sent := sendSpeed env w i (sideRate left right i)
      if !sent.2 then brakeAll env sent.1 else sendSpeeds left right rest sent.1
    else sendSpeeds left right rest w

/-- Nothing is requested and the profiles are at rest. -/
def Wheels.idle (w : Wheels F) : Bool :=
  w.requestedLinear == 0 && w.requestedAngular == 0 &&
    fabs w.controller.linear.velocity < 1e-6 && fabs w.controller.linear.acceleration < 1e-6 &&
    fabs w.controller.yaw.velocity < 1e-6 && fabs w.controller.yaw.acceleration < 1e-6

/-- No motor is further from its target than a fifth of the cap. -/
def Wheels.trackingGood (w : Wheels F) : Bool :=
  wheelIndices.all fun i =>
    !(w.controller.cfg.wheelMax * 0.2 <
      fabs (w.measured i / w.controller.cfg.radius - w.target i * wheelSpeedScale))

/-- The control period `wheels_update` integrates over. -/
def Wheels.controlDt (w : Wheels F) (now : UInt64) : F :=
  -- an idle profile is not integrated over a long gap
  if w.idle then 1.0 / 50
  else if w.lastUpdateUs ≠ 0 then ((now - w.lastUpdateUs).toNat : F) / 1000000.0 else 1.0 / 50

/-- The checks before any frame is sent: the next controller and the rates of the
two sides. -/
def updateTargets (w : Wheels F) (now : UInt64) (dt : F) : Option (Glide F × F × F) := do
  let yawRate ← wheelsYawRate w now
  let _ ← wheelsMeasuredTwist w now
  glideUpdate w.controller w.requestedLinear w.requestedAngular yawRate w.trackingGood dt

/-- The branch with motion disabled: the online wheels are braked again. -/
def brakeOnline (w : Wheels F) (now : UInt64) : Wheels F :=
  wheelIndices.foldl (fun w i => if !w.online i then w else brakeFeedback env w i)
    { w with nextUpdateUs := now + wheelControlUs }

/-- The branch with motion enabled. -/
def advanceMotion (w : Wheels F) (now : UInt64) : Wheels F :=
  let targets := updateTargets w now (w.controlDt now)
  let w := { w with lastUpdateUs := now, nextUpdateUs := now + wheelControlUs }
  match targets with
  | none => brakeAll env w
  | some (controller, left, right) => sendSpeeds env left right wheelIndices { w with controller }

def wheelsUpdate (w : Wheels F) : Wheels F :=
  let now := env.clock w.ticks
  let w := { w with ticks := w.ticks + 1 }
  if now < w.nextUpdateUs then w
  else if !w.motionEnabled then brakeOnline env w now
  else if w.lastUpdateUs ≠ 0 ∧ now ≤ w.lastUpdateUs then w
  else advanceMotion env w now

/-! ### Parameters -/

def wheelsGetParameters (w : Wheels F) : CalibrationParameters F :=
  let cfg := w.controller.cfg
  { ax := cfg.axMax, jx := cfg.jxMax, aw := cfg.alphaMax, jw := cfg.jalphaMax, kIcr := cfg.icr
    radius := cfg.radius, separation := cfg.separation, ramp := (w.motorRamp.toNat : F)
    rpmMax := round (cfg.wheelMax * fabs wheelSpeedScale * 60 / twoPi)
    vxMax := cfg.vxMax, wzMax := cfg.wzMax, lpf := w.gyroConfig.lpfHz
    kp := cfg.yawKp, ki := cfg.yawKi, correctionMax := cfg.correctionMax, deadband := cfg.deadband
    correctionAccel := cfg.correctionAccel, correctionJerk := cfg.correctionJerk
    yawFeedback := if cfg.yawFeedback then 1 else 0 }

/-- The configuration a set of parameters asks for. -/
def glideConfigOf (p : CalibrationParameters F) : GlideConfig F :=
  { axMax := p.ax, jxMax := p.jx, alphaMax := p.aw, jalphaMax := p.jw, icr := p.kIcr
    radius := p.radius, separation := p.separation
    wheelMax := p.rpmMax * twoPi / 60 / fabs wheelSpeedScale
    vxMax := p.vxMax, wzMax := p.wzMax, yawKp := p.kp, yawKi := p.ki
    yawFeedback := p.yawFeedback != 0, correctionMax := p.correctionMax, deadband := p.deadband
    correctionAccel := p.correctionAccel, correctionJerk := p.correctionJerk }

/-- The parameters `wheels_configure_calibration` refuses by itself. -/
def parametersRefused (p : CalibrationParameters F) : Bool :=
  !isfinite p.rpmMax || p.rpmMax < 20 || 200 < p.rpmMax ||
    !isfinite p.vxMax || p.vxMax < 0.05 || 0.4 < p.vxMax ||
    !isfinite p.wzMax || p.wzMax < 0.1 || 0.8 < p.wzMax ||
    !isfinite p.yawFeedback || (p.yawFeedback != 0 && p.yawFeedback != 1) ||
    !isfinite p.ramp || p.ramp < 1 || 255 < p.ramp || floor p.ramp != p.ramp ||
    !isfinite p.lpf || p.lpf < 1 || 80 < p.lpf

/-- A conversion to `uint8_t`. -/
def toUInt8 (x : F) : UInt8 := UInt8.ofNat (toInt x).toNat

def wheelsConfigureCalibration (w : Wheels F) (p : CalibrationParameters F) : Wheels F × Bool :=
  let status := wheelsGetDriveStatus w (env.clock w.ticks)
  let w := { w with ticks := w.ticks + 1 }
  if !status.atRest || status.motionEnabled then (w, false)
  else if parametersRefused p then (w, false)
  else match glideInit (glideConfigOf p) with
    | none => (w, false)
    | some controller =>
      let oldRadius := w.controller.cfg.radius
      -- the speeds measured so far are rescaled to the new radius
      let w := { w with
        controller
        measured := fun i => w.measured i * (controller.cfg.radius / oldRadius)
        motorRamp := toUInt8 p.ramp }
      if w.gyroConfig.lpfHz != p.lpf then
        (wheelsRestartGyroCalibration env
          { w with gyroConfig := { w.gyroConfig with lpfHz := p.lpf } }, true)
      else (w, true)

/-- Only with motion disabled. -/
def wheelsRetryOffline (w : Wheels F) : Wheels F :=
  if w.motionEnabled then w
  else wheelIndices.foldl (fun w i =>
    if w.online i || !w.bus i then w
    else
      let (mode, w) := getMode env (sendBrake w i)
      if mode < 0 then w
      else
        let (mode, w) := getMode env w
        -- braked in either case, and the reply is saved
        brakeFeedback env { w with online := update w.online i (mode = ddsm210ModeVelocity)
                                   braked := update w.braked i true } i) w

/-! ### Start-up -/

/-- The image `wheels.c` is compiled into. -/
inductive Image
  | ros | calibration
deriving DecidableEq

/-- The configuration of `robot.h`. -/
def robotConfig : GlideConfig F :=
  { radius := 0.0363, separation := 0.2899, icr := 1.5
    wheelMax := fmin 200 ((ddsm210MaxSpeedRaw : F) / 10.0) * twoPi / 60.0 / fabs wheelSpeedScale
    vxMax := 0.75, wzMax := 2.0, axMax := 0.7, jxMax := 2.0, alphaMax := 3.0, jalphaMax := 10.0
    yawKp := 0.5, yawKi := 0.3
    -- in both images
    yawFeedback := false
    correctionAccel := 0.25, correctionJerk := 1.0, correctionMax := 0.5, deadband := 0.005 }

/-- The controller and the estimator, with the saved configuration if one is
compiled in; `false` when a configuration is refused. -/
def beginController (header : Option (CalibrationParameters F)) (w : Wheels F) :
    Wheels F × Bool :=
  let w := { w with gyro := gyroYawBegin w.gyroConfig }
  match glideInit robotConfig with
  | none => (w, false)
  | some controller =>
    let w := { w with controller }
    match header with
    | none => (w, true)
    | some saved =>
      match glideInit (glideConfigOf saved) with
      | none => (w, false)
      | some controller =>
        let gyroConfig := { w.gyroConfig with lpfHz := saved.lpf }
        ({ w with controller, motorRamp := toUInt8 saved.ramp, gyroConfig
                  gyro := gyroYawBegin gyroConfig }, true)

/-- Mode writes may have no reply: the calibration image verifies with a query. -/
def verifyMode (w : Wheels F) (i : Fin 4) : Wheels F :=
  let (mode, w) := getMode env w
  if mode ≠ ddsm210ModeVelocity then
    let w := sendBrake w i
    { w with online := update w.online i false }
  else w

/-- The probe of one wheel; the calibration image brakes before it. -/
def beginWheel (image : Image) (w : Wheels F) (i : Fin 4) : Wheels F :=
  let w := { w with bus := update w.bus i (env.port i) }
  if !w.bus i then w
  else
    let w := if image = .calibration then sendBrake w i else w
    -- asking for its mode is the cheapest way to ask whether a motor is there
    let (mode, w) := getMode env w
    let w := { w with online := update w.online i (0 ≤ mode) }
    if !w.online i then w
    else
      let w := { w with braked := update w.braked i true }
      if image = .calibration then verifyMode env w i else w

def wheelsBegin (image : Image) (header : Option (CalibrationParameters F)) : Wheels F :=
  let w := beginController header .initial
  if !w.2 then w.1 else wheelIndices.foldl (beginWheel env image) w.1

/-- The start-up of both images: `wheels_begin`, then the brake-all loop. -/
def wheelsBoot (image : Image) (header : Option (CalibrationParameters F)) : Wheels F :=
  brakeAll env (wheelsBegin env image header)

end Model
