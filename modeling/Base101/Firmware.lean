/-
The calibration firmware (`calibration_firmware.c`).

The main loop joins the calibration protocol to the wheels.  One iteration
probes for motors, samples the IMU, watches the USB connection, expires the
protocol, reads at most 192 characters, expires again, updates the wheels and
compares the two layers.  A complete line is one command; an accepted command is
followed by a `status` of its own, whose reply is the one sent.

The protocol is called through `protocolMachine`, so its history of accepted
requests is kept.  The text of the telemetry is not modelled, only its values,
and neither are the status light and the USB stack; a reply that does not fit
the output is dropped.
-/
import Base101.WheelsStep
import Base101.Odometry
import Base101.CalibrationMetrics
import Base101.ProtocolSafety

/-- The fields of `imu_health_t` the telemetry reports. -/
structure ImuHealth where
  sensorOnline : Bool
  readSuccesses : UInt32
  readFailures : UInt32

/-- The tapes of the firmware. -/
structure FirmwareBus (F : Type) extends Bus where
  /-- The results of `imu_read`. -/
  imu : ℕ → Bool × ImuSample F
  /-- The answers of `imu_get_health`, one for each reply. -/
  health : ℕ → ImuHealth
  /-- The answers of `tud_mounted`, one for each iteration. -/
  mounted : ℕ → Bool
  /-- The characters received: one for each poll, `none` when there is none. -/
  input : ℕ → Option UInt8
  /-- The reply fits the buffer and the output queue. -/
  room : ℕ → Bool

/-- What `add_telemetry` adds to a reply. -/
structure Telemetry (F : Type) where
  drive : DriveStatus F
  yaw : YawStatus F
  health : ImuHealth
  yawFeedback : Bool
  sample : ImuSample F
  sampleValid : Bool
  sampleUs : UInt64
  /-- The measured twist; zeros are printed without one. -/
  measured : Option (F × F)
  radius : F
  separation : F
  metrics : CalibrationMetrics F
  accelRms : F
  trackingRms : F
  odom : Odometry F

/-- A reply sent, and the parameters of the two layers at that moment. -/
structure Sent (F : Type) where
  reply : Reply F
  telemetry : Telemetry F
  /-- `state.parameters`. -/
  parameters : CalibrationParameters F
  /-- What `wheels_get_parameters` returns. -/
  active : CalibrationParameters F

/-- The statics of the firmware and the locals of its `main`. -/
structure Firmware (F : Type) where
  wheels : Wheels F
  protocol : ProtocolRun F
  sample : ImuSample F
  sampleValid : Bool
  sampleUs : UInt64
  odom : Odometry F
  metrics : CalibrationMetrics F
  telemetryParameters : CalibrationParameters F
  line : List Char
  overflow : Bool
  connected : Bool
  nextSample : UInt64
  nextOdom : UInt64
  nextProbe : UInt64
  /-- The replies sent, latest first. -/
  outbox : List (Sent F)
  /-- IMU reads, polls for input, replies and iterations so far. -/
  reads : ℕ
  polls : ℕ
  replies : ℕ
  loops : ℕ

/-- `1000000u / ODOM_HZ`. -/
def odomUs : UInt64 := 20000
def odomMaxDtUs : UInt64 := 50000
/-- `sizeof(line)`. -/
def lineCapacity : ℕ := 512
/-- Characters read in one iteration. -/
def inputBudget : ℕ := 192

namespace Firmware

variable {F : Type}

/-- The protocol state. -/
def state (fw : Firmware F) : CalibrationProtocol F := fw.protocol.state

/-- An entry point of the protocol is called. -/
def call [Double F] (fw : Firmware F) (e : ProtocolEvent) : Firmware F :=
  { fw with protocol := (protocolMachine F).step fw.protocol e }

/-- The assignment `state.parameters = p`. -/
def setParameters (fw : Firmware F) (p : CalibrationParameters F) : Firmware F :=
  { fw with protocol := { fw.protocol with state := { fw.protocol.state with parameters := p } } }

end Firmware

section Model

variable {F : Type} [Double F] (env : FirmwareBus F)

open Double

/-- `brake_all`. -/
def firmwareBrakeAll (fw : Firmware F) : Firmware F :=
  { fw with wheels := brakeAll env.toBus fw.wheels }

def observeState (fw : Firmware F) : Firmware F :=
  let (now, wheels) := readClock env.toBus fw.wheels
  let d := wheelsGetDriveStatus wheels now
  let y := wheelsGetYawStatus wheels now
  let fresh := wheelIndices.all d.fresh
  -- under a fault the protocol is never ready
  { fw with wheels }.call
    (.observe (y.fresh && fresh && !fw.state.fault) (d.atRest && !d.motionEnabled))

/-! ### The start of an iteration -/

/-- Once a second, and only with motion disabled. -/
def probeOffline (fw : Firmware F) : Firmware F :=
  -- in motion not even the clock is read
  if fw.state.driving || fw.state.releasing then fw
  else
    let (now, wheels) := readClock env.toBus fw.wheels
    if now < fw.nextProbe then { fw with wheels }
    else
      let (now, wheels) := readClock env.toBus (wheelsRetryOffline env.toBus wheels)
      { fw with wheels, nextProbe := now + 1000000 }

/-- A sample is used when it was received and all of it is finite. -/
def imuValid (received : Bool) (current : ImuSample F) : Bool :=
  received && ([0, 1, 2] : List (Fin 3)).all (fun i =>
    isfinite (current.gyro i) && isfinite (current.accel i)) && isfinite current.tempC

/-- The measured twist, and with it the yaw rate. -/
def measuredRates (wheels : Wheels F) : Option (F × F) × Option F × Wheels F :=
  let (now, wheels) := readClock env.toBus wheels
  match wheelsMeasuredTwist wheels now with
  | none => (none, none, wheels)
  | some twist =>
    let (now, wheels) := readClock env.toBus wheels
    (some twist, wheelsYawRate wheels now, wheels)

/-- The metrics see every sample, and what was requested and shaped for it. -/
def observeMetrics (fw : Firmware F) (current : ImuSample F) (valid : Bool) : Firmware F :=
  let (now, wheels) := readClock env.toBus fw.wheels
  let md := wheelsGetDriveStatus wheels now
  let (twist, rate, wheels) := measuredRates env wheels
  let (now, wheels) := readClock env.toBus wheels
  { fw with
    wheels
    metrics := calibrationMetricsObserve fw.metrics now
      { accel := current.accel, gyro := rate.getD 0
        vx := (twist.getD (0, 0)).1, encoder := (twist.getD (0, 0)).2
        requestedVx := md.requestedVx, requestedWz := md.requestedWz
        shapedVx := md.shapedVx, shapedWz := md.shapedWz, icr := fw.state.parameters.kIcr
        valid := valid && twist.isSome && rate.isSome, moving := md.motionEnabled } }

/-- The last valid sample is kept, at a reading of its own. -/
def keepSample (fw : Firmware F) (current : ImuSample F) (valid : Bool) : Firmware F :=
  if valid then
    let (sampleUs, wheels) := readClock env.toBus fw.wheels
    { fw with wheels, sample := current, sampleValid := true, sampleUs }
  else { fw with sampleValid := false }

/-- The gyro is observed at a reading of its own. -/
def observeSample (fw : Firmware F) (current : ImuSample F) (valid : Bool) : Firmware F :=
  let (now, wheels) := readClock env.toBus fw.wheels
  { fw with wheels := wheelsObserveGyro wheels current now valid }

/-- A sample that is due: kept, observed and measured, in this order. -/
def takeSample (fw : Firmware F) (current : ImuSample F) (valid : Bool) : Firmware F :=
  observeMetrics env (observeSample env (keepSample env fw current valid) current valid)
    current valid

def firmwareSampleImu (fw : Firmware F) : Firmware F :=
  let (now, wheels) := readClock env.toBus fw.wheels
  let fw := { fw with wheels }
  if now < fw.nextSample then fw
  else
    let (received, current) := env.imu fw.reads
    let fw := takeSample env { fw with reads := fw.reads + 1 } current (imuValid received current)
    let (now, wheels) := readClock env.toBus fw.wheels
    { fw with wheels, nextSample := now + imuSampleUs }

/-- Unplugging ends the session and drops a partial line. -/
def watchConnection (fw : Firmware F) : Firmware F :=
  let mounted := env.mounted fw.loops
  if fw.connected && !mounted then
    { firmwareBrakeAll env (fw.call .disconnect) with
      line := [], overflow := false, connected := mounted }
  else { fw with connected := mounted }

/-- `if (calibration_expire(&state, time_us_64())) brake_all();` -/
def expireAndBrake (fw : Firmware F) : Firmware F :=
  let (now, wheels) := readClock env.toBus fw.wheels
  let brake := (calibrationExpire fw.state now).2
  let fw := { fw with wheels }.call (.expire now)
  if brake then firmwareBrakeAll env fw else fw

/-! ### Lines -/

/-- A call of `calibration_command` and the brake it asks for. -/
def commandAndBrake (fw : Firmware F) (line : List Char) : Firmware F × Reply F :=
  let (now, wheels) := readClock env.toBus fw.wheels
  let out := calibrationCommand fw.state line now
  let fw := { fw with wheels }.call (.command line now)
  (if out.2.1 then firmwareBrakeAll env fw else fw, out.2.2)

/-- The controller is asked for the parameters the protocol has accepted; a refusal
rolls them back. -/
def applyParameters (fw : Firmware F) (previous : CalibrationParameters F) :
    Firmware F × Bool :=
  let p := fw.state.parameters
  let out := wheelsConfigureCalibration env.toBus fw.wheels p
  let fw := { fw with wheels := out.1 }
  -- the protocol has committed to `p` already
  if !out.2 then (fw.setParameters previous, false)
  else if p.radius != previous.radius || p.separation != previous.separation then
    ({ fw with odom := .zero }, true)
  else (fw, true)

/-- The action of an accepted command, and whether the hardware took it. -/
def performAction (fw : Firmware F) (previous : CalibrationParameters F) : Firmware F × Bool :=
  match fw.state.action with
  -- a rejected line leaves no action, so it is never applied
  | .none | .bound => (fw, true)
  | .measure =>
    let (now, wheels) := readClock env.toBus fw.wheels
    ({ fw with
      wheels
      metrics := { calibrationMetricsBegin now fw.sample.accel with
        bodyResponse := fw.state.measureBody } }, true)
  | .gyro => ({ fw with wheels := wheelsRestartGyroCalibration env.toBus fw.wheels }, true)
  | .set => applyParameters env fw previous
  | .drive | .release =>
    let out := wheelsSetVelocity env.toBus fw.wheels fw.state.vx fw.state.wz
    ({ fw with wheels := out.1 }, out.2)

/-- A command line: the protocol, then the hardware. -/
def commandLine (fw : Firmware F) (line : List Char) : Firmware F × Reply F :=
  let fw := observeState env fw
  let previous := fw.state.parameters
  let commanded := commandAndBrake env fw line
  let acted := performAction env commanded.1 previous
  if !acted.2 then
    (firmwareBrakeAll env (acted.1.call (.fault "hardware_rejected")),
      .error (lineId line) "hardware_rejected")
  else (acted.1, commanded.2)

/-- `"%lu status"`. -/
def statusLine (id : ℕ) : List Char := Nat.toDigits 10 id ++ " status".toList

/-- An accepted command reports the status after its action. -/
def confirmStatus (fw : Firmware F) (line : List Char) (reply : Reply F) :
    Firmware F × Reply F :=
  if reply.isOk then commandAndBrake env (observeState env fw) (statusLine (lineId line))
  else (fw, reply)

/-- A complete line, too long or with control characters, or a command. -/
def handleLine (fw : Firmware F) : Firmware F × Reply F :=
  if fw.overflow then
    (firmwareBrakeAll env (fw.call (.stop "invalid_request")),
      .error 0 "line_too_long_or_invalid")
  else
    let handled := commandLine env fw fw.line
    confirmStatus env handled.1 fw.line handled.2

def addTelemetry (fw : Firmware F) (now : UInt64) : Telemetry F :=
  let p := fw.telemetryParameters
  let m := fw.metrics
  { drive := wheelsGetDriveStatus fw.wheels now, yaw := wheelsGetYawStatus fw.wheels now
    health := env.health fw.replies, yawFeedback := p.yawFeedback != 0
    sample := fw.sample, sampleValid := fw.sampleValid, sampleUs := fw.sampleUs
    measured := wheelsMeasuredTwist fw.wheels now
    radius := if p.radius != 0 then p.radius else 0.0363
    separation := if p.separation != 0 then p.separation else 0.2899
    metrics := m
    accelRms := if 0 < m.elapsedS then sqrt (m.accelEnergy / m.elapsedS) else 0
    trackingRms := if 0 < m.trackingS then sqrt (m.trackingEnergy / m.trackingS) else 0
    odom := fw.odom }

def sendReply (fw : Firmware F) (reply : Reply F) : Firmware F :=
  let (now, wheels) := readClock env.toBus fw.wheels
  let fw := { fw with wheels, telemetryParameters := fw.state.parameters }
  let sent : Sent F :=
    { reply, telemetry := addTelemetry env fw now, parameters := fw.state.parameters
      active := wheelsGetParameters fw.wheels }
  { fw with
    replies := fw.replies + 1
    outbox := if env.room fw.replies then sent :: fw.outbox else fw.outbox }

def readChar (fw : Firmware F) (ch : UInt8) : Firmware F :=
  if ch = 10 ∨ ch = 13 then
    -- an empty line is not a command
    if fw.line ≠ [] ∨ fw.overflow then
      let handled := handleLine env fw
      { sendReply env handled.1 handled.2 with line := [], overflow := false }
    else { fw with line := [], overflow := false }
  else if ch < 32 ∨ 126 < ch then { fw with overflow := true }
  else if fw.line.length + 1 < lineCapacity then
    { fw with line := fw.line ++ [Char.ofNat ch.toNat] }
  else { fw with overflow := true }

/-- The input loop: it ends when nothing is available. -/
def readInput : (budget : ℕ) → Firmware F → Firmware F
  | 0, fw => fw
  | budget + 1, fw =>
    match env.input fw.polls with
    | none => { fw with polls := fw.polls + 1 }
    | some ch => readInput budget (readChar env { fw with polls := fw.polls + 1 } ch)

/-! ### The end of an iteration -/

/-- Motion that the wheels gave up is a fault; a release ends at rest. -/
def compareLayers (fw : Firmware F) : Firmware F :=
  let (now, wheels) := readClock env.toBus fw.wheels
  let d := wheelsGetDriveStatus wheels now
  let fw := { fw with wheels }
  -- `d` is the status before either brake
  let fw := if (fw.state.driving || fw.state.releasing) && !d.motionEnabled then
      firmwareBrakeAll env (fw.call (.fault "motor_or_gyro_fault"))
    else if fw.state.releasing && d.atRest then
      firmwareBrakeAll env (fw.call (.stop "released"))
    else fw
  if fw.metrics.motionStartUs ≠ 0 ∧ !d.motionEnabled then
    { fw with metrics := { fw.metrics with active := false } }
  else fw

def firmwareOdometry (fw : Firmware F) : Firmware F :=
  let (now, wheels) := readClock env.toBus fw.wheels
  if now < fw.nextOdom then { fw with wheels }
  else
    let (now, wheels) := readClock env.toBus wheels
    let twist := wheelsMeasuredTwist wheels now
    { fw with
      wheels
      odom := odometryUpdate fw.odom now (twist.getD (0, 0)).1 (twist.getD (0, 0)).2
        twist.isSome odomMaxDtUs
      nextOdom := now + odomUs }

/-! ### The loop -/

/-- Up to the first expiry. -/
def beginIteration (fw : Firmware F) : Firmware F :=
  expireAndBrake env (watchConnection env (firmwareSampleImu env (probeOffline env fw)))

/-- From the wheel update on. -/
def endIteration (fw : Firmware F) : Firmware F :=
  let fw := compareLayers env { fw with wheels := wheelsUpdate env.toBus fw.wheels }
  let fw := firmwareOdometry env (observeState env fw)
  { fw with loops := fw.loops + 1 }

/-- One iteration of the loop in `main`. -/
def firmwareLoop (fw : Firmware F) : Firmware F :=
  endIteration env (expireAndBrake env (readInput env inputBudget (beginIteration env fw)))

/-- The start-up parameters: those of the controller, within the trial limits. -/
def startupParameters (wheels : Wheels F) : CalibrationParameters F :=
  let startup := wheelsGetParameters wheels
  { startup with vxMax := fmin startup.vxMax 0.4, wzMax := fmin startup.wzMax 0.8 }

/-- The start of `main`; whether the controller took the parameters is not looked
at. -/
def firmwareBoot : Firmware F :=
  let wheels := wheelsBoot env.toBus .calibration none
  let startup := startupParameters wheels
  let protocol := ProtocolRun.boot startup
  { wheels := (wheelsConfigureCalibration env.toBus wheels startup).1
    protocol
    sample := { accel := fun _ => 0, gyro := fun _ => 0, tempC := 0 }
    sampleValid := false, sampleUs := 0, odom := .zero, metrics := .zero
    telemetryParameters := protocol.state.parameters
    line := [], overflow := false, connected := false
    nextSample := 0, nextOdom := 0, nextProbe := 0
    outbox := [], reads := 0, polls := 0, replies := 0, loops := 0 }

/-- The state after `n` iterations. -/
def firmwareRun (n : ℕ) : Firmware F := (firmwareLoop env)^[n] (firmwareBoot env)

theorem firmwareRun_succ (n : ℕ) :
    firmwareRun env (n + 1) = firmwareLoop env (firmwareRun env n) :=
  Function.iterate_succ_apply' _ _ _

end Model

/-! ### The status request -/

open CString in
/-- The two tokens of a status request. -/
theorem tokens_statusLine (id : ℕ) :
    tokens (statusLine id) = [String.ofList (Nat.toDigits 10 id), "status"] := by
  -- the digits are one token, since none of them is a delimiter
  have hdigits : ∀ c ∈ Nat.toDigits 10 id, c ∉ [' ', '\t'] := by
    intro c hc hdelim
    have hdigit := List.all_eq_true.mp (isDigit_toDigits id) c hc
    simp only [List.mem_cons, List.not_mem_nil, or_false] at hdelim
    rcases hdelim with rfl | rfl <;> cases hdigit
  have hrest : strtokFrom [' ', '\t'] [] "status".toList = ["status".toList] := by decide
  rw [tokens, strtok, statusLine, strtokFrom_append hdigits]
  show ((strtokFrom [' ', '\t'] ((Nat.toDigits 10 id).reverse ++ []) (' ' :: "status".toList)).map
    String.ofList) = _
  rw [strtokFrom, if_pos (by simp), hrest]
  simp

/-- A status request is one, if it is well formed. -/
theorem lineRequest_statusLine (id : ℕ) :
    lineRequest (statusLine id) = none ∨ lineRequest (statusLine id) = some .status := by
  rw [lineRequest]
  split
  · right
    rw [arguments, tokens_statusLine]
    rfl
  · exact .inl rfl

theorem lineId_statusLine {id : ℕ} (h : id ≤ 2147483647) : lineId (statusLine id) = id := by
  rw [lineId, arguments, tokens_statusLine]
  show CString.strtoul (String.ofList (Nat.toDigits 10 id)).toList = id
  rw [String.toList_ofList, CString.strtoul_toDigits (h.trans (by decide))]

/-- It is well formed, for an id of the protocol. -/
theorem wellFormed_statusLine {id : ℕ} (h : id ≤ 2147483647) : wellFormed (statusLine id) := by
  have hid := lineId_statusLine h
  have hdigits := CString.isDigit_toDigits id
  simp [wellFormed, validId, hid, h, arguments, tokens_statusLine, hdigits]

/-! ### Phases that command nothing -/

section Undisturbed

variable {F : Type}

/-- Some readings of the clock later, nothing else having happened to the wheels that
motion or parameters depend on. -/
structure Reading (w w' : Wheels F) : Prop where
  motion : w'.motionEnabled = w.motionEnabled
  ticks : w.ticks ≤ w'.ticks
  parameters : SameParameters w w'

theorem Reading.refl (w : Wheels F) : Reading w w := ⟨rfl, Nat.le_refl _, ⟨rfl, rfl, rfl⟩⟩

theorem Reading.trans {w w' w'' : Wheels F} (h : Reading w w') (h' : Reading w' w'') :
    Reading w w'' :=
  ⟨h'.motion.trans h.motion, h.ticks.trans h'.ticks, h.parameters.trans h'.parameters⟩

theorem readClock_reading (env : Bus) (w : Wheels F) : Reading w (readClock env w).2 :=
  ⟨rfl, Nat.le_succ _, ⟨rfl, rfl, rfl⟩⟩

/-- The protocol is as it was, nothing was sent, and the wheels keep their motion
and their parameters. -/
structure Undisturbed (fw fw' : Firmware F) : Prop where
  protocol : fw'.protocol = fw.protocol
  outbox : fw'.outbox = fw.outbox
  wheels : Reading fw.wheels fw'.wheels

theorem Undisturbed.trans {fw fw' fw'' : Firmware F} (h : Undisturbed fw fw')
    (h' : Undisturbed fw' fw'') : Undisturbed fw fw'' :=
  ⟨h'.protocol.trans h.protocol, h'.outbox.trans h.outbox, h.wheels.trans h'.wheels⟩

variable [Double F] (env : FirmwareBus F)

theorem probeOffline_undisturbed (fw : Firmware F) : Undisturbed fw (probeOffline env fw) := by
  have hread := readClock_reading env.toBus fw.wheels
  rw [probeOffline]
  split
  · exact ⟨rfl, rfl, .refl _⟩
  · dsimp only
    split
    · exact ⟨rfl, rfl, hread⟩
    · have hretry := wheelsRetryOffline_extends env.toBus (readClock env.toBus fw.wheels).2
      have hprobed : Reading (readClock env.toBus fw.wheels).2
          (wheelsRetryOffline env.toBus (readClock env.toBus fw.wheels).2) :=
        ⟨wheelsRetryOffline_motionEnabled env.toBus _, hretry.ticks, hretry.parameters⟩
      exact ⟨rfl, rfl, (hread.trans hprobed).trans (readClock_reading env.toBus _)⟩

theorem measuredRates_reading (w : Wheels F) : Reading w (measuredRates env w).2.2 := by
  -- the yaw rate takes a reading of its own, after a twist
  rw [measuredRates]
  dsimp only
  split
  · exact readClock_reading env.toBus w
  · exact (readClock_reading env.toBus w).trans (readClock_reading env.toBus _)

theorem observeMetrics_undisturbed (fw : Firmware F) (current : ImuSample F) (valid : Bool) :
    Undisturbed fw (observeMetrics env fw current valid) := by
  refine ⟨rfl, rfl, ?_⟩
  have hstatus := readClock_reading env.toBus fw.wheels
  have hrates := measuredRates_reading env (readClock env.toBus fw.wheels).2
  exact (hstatus.trans hrates).trans (readClock_reading env.toBus _)

theorem takeSample_undisturbed (fw : Firmware F) (current : ImuSample F) (valid : Bool) :
    Undisturbed fw (takeSample env fw current valid) := by
  have keep : Undisturbed fw (keepSample env fw current valid) := by
    rw [keepSample]
    split
    · exact ⟨rfl, rfl, readClock_reading env.toBus fw.wheels⟩
    · exact ⟨rfl, rfl, .refl _⟩
  have observe (fw : Firmware F) : Undisturbed fw (observeSample env fw current valid) :=
    ⟨rfl, rfl, rfl, Nat.le_succ _, ⟨rfl, rfl, rfl⟩⟩
  exact (keep.trans (observe _)).trans (observeMetrics_undisturbed env _ current valid)

theorem firmwareSampleImu_undisturbed (fw : Firmware F) :
    Undisturbed fw (firmwareSampleImu env fw) := by
  have hread := readClock_reading env.toBus fw.wheels
  rw [firmwareSampleImu]
  dsimp only
  split
  · exact ⟨rfl, rfl, hread⟩
  · set read : Firmware F :=
      { fw with wheels := (readClock env.toBus fw.wheels).2, reads := fw.reads + 1 }
    have hclock : Undisturbed fw read := ⟨rfl, rfl, hread⟩
    have htake := takeSample_undisturbed env read (env.imu fw.reads).2
      (imuValid (env.imu fw.reads).1 (env.imu fw.reads).2)
    generalize takeSample env read _ _ = taken at htake ⊢
    exact (hclock.trans htake).trans ⟨rfl, rfl, readClock_reading env.toBus taken.wheels⟩

theorem firmwareOdometry_undisturbed (fw : Firmware F) :
    Undisturbed fw (firmwareOdometry env fw) := by
  have hread := readClock_reading env.toBus fw.wheels
  rw [firmwareOdometry]
  dsimp only
  split
  · exact ⟨rfl, rfl, hread⟩
  · exact ⟨rfl, rfl, hread.trans (readClock_reading env.toBus _)⟩

end Undisturbed
