/-
The ROS node (`ros.c`, `main.c`).

One iteration of the main loop dispatches the messages that have arrived, calls
the command watchdog, samples the IMU and updates the wheels.  Publications,
odometry and clock synchronisation read this state and write none of it; the
clock readings they take are skipped.  A reboot ends the run.

* `rosLoop_watched` — the invariant of the loop: motion is enabled by a live command
  only, and the watchdog's repeat timer never outlasts it;
* `command_watchdog` — after every watchdog call, motion is enabled only by a
  command less than 500 ms old.
-/
import Base101.WheelsStep
import Base101.Clock

/-- The messages that reach the wheels. -/
inductive RosMessage (F : Type)
  | cmdVel (linearX angularZ : F)
  | gyroCalibrate (restart : Bool)

/-- The tapes of the node. -/
structure RosBus (F : Type) extends Bus where
  /-- The results of `imu_read`. -/
  imu : ℕ → Bool × ImuSample F
  /-- The messages dispatched in each iteration. -/
  inbox : ℕ → List (RosMessage F)

/-- The statics of `ros.c`. -/
structure Ros (F : Type) where
  wheels : Wheels F
  latestImu : ImuSample F
  latestImuUs : UInt64
  latestImuValid : Bool
  nextSampleUs : UInt64
  lastCmdVelUs : UInt64
  haveCmdVel : Bool
  nextBrakeUs : UInt64
  /-- IMU reads and iterations so far. -/
  reads : ℕ
  loops : ℕ

/-- `COMMAND_TIMEOUT_MS` in microseconds. -/
def commandTimeoutUs : UInt64 := 500000
/-- `1000000u / COMMAND_WATCHDOG_HZ`. -/
def commandWatchdogUs : UInt64 := 200000

section Model

variable {F : Type} [Double F] (env : RosBus F)

open Function

def onGyroCalibrate (r : Ros F) (restart : Bool) : Ros F :=
  if restart then
    { r with wheels := wheelsRestartGyroCalibration env.toBus r.wheels, haveCmdVel := false }
  else r

/-- The accepted command is recorded at the reading taken for it. -/
def onCmdVel (r : Ros F) (linearX angularZ : F) : Ros F :=
  let status := readClock env.toBus r.wheels
  if !(wheelsGetYawStatus status.2 status.1).calibrated then
    { r with wheels := status.2, haveCmdVel := false }
  else
    let command := wheelsSetVelocity env.toBus status.2 linearX angularZ
    if !command.2 then
      -- a malformed command must not keep the last valid motion alive
      { r with wheels := brakeAll env.toBus command.1, haveCmdVel := false }
    else
      let (now, wheels) := readClock env.toBus command.1
      { r with wheels := { wheels with trace := .commanded now :: wheels.trace }
               lastCmdVelUs := now, haveCmdVel := true }

def dispatch (r : Ros F) : RosMessage F → Ros F
  | .cmdVel linearX angularZ => onCmdVel env r linearX angularZ
  | .gyroCalibrate restart => onGyroCalibrate env r restart

/-- Brakes are repeated at 5 Hz while the last command is stale. -/
def cmdVelWatchdog (r : Ros F) : Ros F :=
  let (now, wheels) := readClock env.toBus r.wheels
  if r.haveCmdVel ∧ now - r.lastCmdVelUs < commandTimeoutUs then
    { r with wheels, nextBrakeUs := 0 }
  else if r.nextBrakeUs ≤ now then
    { r with wheels := brakeAll env.toBus wheels, nextBrakeUs := now + commandWatchdogUs }
  else { r with wheels }

def sampleImu (r : Ros F) : Ros F :=
  let (now, wheels) := readClock env.toBus r.wheels
  if now < r.nextSampleUs then { r with wheels }
  else
    let (valid, sample) := env.imu r.reads
    let (latestImuUs, wheels) := readClock env.toBus wheels
    let wheels := wheelsObserveGyro wheels sample latestImuUs valid
    let yawRate := if valid then wheelsYawRate wheels latestImuUs else none
    { r with
      wheels, nextSampleUs := now + imuSampleUs, reads := r.reads + 1, latestImuUs
      latestImu := match yawRate with
        | some rate => { sample with gyro := update sample.gyro 2 rate }
        | none => sample
      -- uncalibrated gyro data are not published
      latestImuValid := yawRate.isSome }

/-- The dispatch of an iteration. -/
def spinOnce (r : Ros F) : Ros F := (env.inbox r.loops).foldl (dispatch env) r

/-- `loop`. -/
def rosLoop (r : Ros F) : Ros F :=
  let r := sampleImu env (cmdVelWatchdog env (spinOnce env r))
  { r with wheels := wheelsUpdate env.toBus r.wheels, loops := r.loops + 1 }

/-- `setup`. -/
def rosSetup (header : Option (CalibrationParameters F)) : Ros F :=
  { wheels := wheelsBoot env.toBus .ros header
    latestImu := { accel := fun _ => 0, gyro := fun _ => 0, tempC := 0 }
    latestImuUs := 0, latestImuValid := false, nextSampleUs := 0
    lastCmdVelUs := 0, haveCmdVel := false, nextBrakeUs := 0, reads := 0, loops := 0 }

/-- The state after `n` iterations. -/
def rosRun (header : Option (CalibrationParameters F)) (n : ℕ) : Ros F :=
  (rosLoop env)^[n] (rosSetup env header)

theorem rosRun_succ (header : Option (CalibrationParameters F)) (n : ℕ) :
    rosRun env header (n + 1) = rosLoop env (rosRun env header n) :=
  Function.iterate_succ_apply' _ _ _

end Model

/-! ### Live commands -/

/-- A command accepted at `t`, with no brake and no calibration restart since. -/
def LiveCommand (trace : List WheelEvent) (t : UInt64) : Prop :=
  ∃ since before, trace = since ++ .commanded t :: before ∧ ∀ e ∈ since, e.isStop = false

/-- It stays live while nothing stops it. -/
theorem LiveCommand.extends {F : Type} {w w' : Wheels F} {t : UInt64}
    (h : LiveCommand w.trace t) (hext : Extends (fun e => e.isStop = false) w w') :
    LiveCommand w'.trace t := by
  obtain ⟨since, before, htrace, hsince⟩ := h
  obtain ⟨new, hnew, hquiet⟩ := hext.trace
  refine ⟨new ++ since, before, ?_, ?_⟩
  · rw [hnew, htrace, List.append_assoc]
  · intro e he
    rcases List.mem_append.mp he with he | he
    · exact hquiet e he
    · exact hsince e he

section Watchdog

variable {F : Type} [Double F] {env : RosBus F} {r : Ros F}

/-- The invariant of the loop. -/
structure Watched (env : RosBus F) (r : Ros F) : Prop where
  /-- Motion is enabled by the last command, which nothing has withdrawn. -/
  live : r.wheels.motionEnabled → r.wheels.gyro.calibrated ∧ r.haveCmdVel ∧
    LiveCommand r.wheels.trace r.lastCmdVelUs
  /-- The repeat timer was set at a reading already taken, -/
  timer : ∀ k, r.wheels.ticks ≤ k → r.nextBrakeUs.toNat ≤ (env.clock k).toNat + 200000
  /-- and, while motion is enabled, before the last command. -/
  brake : r.wheels.motionEnabled → r.nextBrakeUs.toNat ≤ r.lastCmdVelUs.toNat + 200000
  last : ∀ k, r.wheels.ticks ≤ k → r.lastCmdVelUs ≤ env.clock k

theorem rosSetup_watched (env : RosBus F) (header : Option (CalibrationParameters F)) :
    Watched env (rosSetup env header) where
  live hm := by
    change (brakeAll env.toBus _).motionEnabled = true at hm
    rw [brakeAll_motionEnabled] at hm
    cases hm
  timer _ _ := Nat.zero_le _
  brake _ := Nat.zero_le _
  last _ _ := UInt64.zero_le

omit [Double F] in
/-- Motion has been disabled, and the clock has gone on. -/
theorem Watched.stopped {r' : Ros F} (h : Watched env r) (hmotion : r'.wheels.motionEnabled = false)
    (hticks : r.wheels.ticks ≤ r'.wheels.ticks) (hbrake : r'.nextBrakeUs = r.nextBrakeUs)
    (hlast : r'.lastCmdVelUs = r.lastCmdVelUs) : Watched env r' where
  live hm := by rw [hmotion] at hm; cases hm
  timer k hk := by rw [hbrake]; exact h.timer k (hticks.trans hk)
  brake hm := by rw [hmotion] at hm; cases hm
  last k hk := by rw [hlast]; exact h.last k (hticks.trans hk)

omit [Double F] in
/-- Nothing has stopped the wheels, and the estimator is still calibrated. -/
theorem Watched.extended {r' : Ros F} (h : Watched env r)
    (hmotion : r'.wheels.motionEnabled → r.wheels.motionEnabled)
    (hgyro : r.wheels.gyro.calibrated → r'.wheels.gyro.calibrated)
    (htrace : r'.wheels.motionEnabled → LiveCommand r.wheels.trace r.lastCmdVelUs →
      LiveCommand r'.wheels.trace r.lastCmdVelUs)
    (hticks : r.wheels.ticks ≤ r'.wheels.ticks) (hhave : r'.haveCmdVel = r.haveCmdVel)
    (hbrake : r'.nextBrakeUs = r.nextBrakeUs) (hlast : r'.lastCmdVelUs = r.lastCmdVelUs) :
    Watched env r' where
  live hm := by
    obtain ⟨hcalibrated, hcmd, hlive⟩ := h.live (hmotion hm)
    rw [hhave, hlast]
    exact ⟨hgyro hcalibrated, hcmd, htrace hm hlive⟩
  timer k hk := by rw [hbrake]; exact h.timer k (hticks.trans hk)
  brake hm := by rw [hbrake, hlast]; exact h.brake (hmotion hm)
  last k hk := by rw [hlast]; exact h.last k (hticks.trans hk)

/-! ### Messages -/

theorem onGyroCalibrate_watched (h : Watched env r) (restart : Bool) :
    Watched env (onGyroCalibrate env r restart) := by
  rw [onGyroCalibrate]
  split
  · exact h.stopped (restart_motionEnabled r.wheels) (restart_ticks r.wheels) rfl rfl
  · exact h

theorem onCmdVel_watched (h : Watched env r) (linearX angularZ : F) :
    Watched env (onCmdVel env r linearX angularZ) := by
  rw [onCmdVel]
  dsimp only
  split
  next hcalibrated =>
    -- before calibration motion is disabled, and stays so
    refine h.stopped ?_ (Nat.le_succ _) rfl rfl
    show r.wheels.motionEnabled = false
    by_contra hm
    have hcalibrated' := (h.live (by simpa using hm)).1
    simp [wheelsGetYawStatus, readClock, hcalibrated'] at hcalibrated
  next hcalibrated =>
    set w : Wheels F := (readClock env.toBus r.wheels).2 with hw
    rcases wheelsSetVelocity_cases env.toBus w linearX angularZ with
      hrefused | ⟨hgyro, -, left, right, hstart⟩
    · -- a refused command brakes
      rw [hrefused]
      refine h.stopped (brakeAll_motionEnabled _) ?_ rfl rfl
      exact Nat.le_trans (by rw [hw, readClock]; simp; omega) (brakeAll_extends env.toBus _).ticks
    · -- the command is live from the reading after it on
      rw [hstart]
      have hticks : r.wheels.ticks ≤ w.ticks := Nat.le_succ _
      refine { live := ?_, timer := ?_, brake := ?_, last := ?_ }
      · intro _
        exact ⟨hgyro, rfl, [], _, rfl, fun _ he => absurd he List.not_mem_nil⟩
      · intro k hk
        change w.ticks + 1 + 1 ≤ k at hk
        exact h.timer k (by omega)
      · intro _
        exact h.timer (w.ticks + 1) (by omega)
      · intro k hk
        change w.ticks + 1 + 1 ≤ k at hk
        show env.clock (w.ticks + 1) ≤ env.clock k
        exact env.clock_mono _ _ (by omega)

theorem dispatch_watched (h : Watched env r) (message : RosMessage F) :
    Watched env (dispatch env r message) := by
  cases message with
  | cmdVel linearX angularZ => exact onCmdVel_watched h linearX angularZ
  | gyroCalibrate restart => exact onGyroCalibrate_watched h restart

theorem spinOnce_watched (h : Watched env r) : Watched env (spinOnce env r) := by
  have hfold (messages : List (RosMessage F)) (r : Ros F) (h : Watched env r) :
      Watched env (messages.foldl (dispatch env) r) := by
    induction messages generalizing r with
    | nil => exact h
    | cons message messages ih => exact ih _ (dispatch_watched h message)
  exact hfold _ r h

/-! ### The watchdog -/

/-- The watchdog finds a command less than 500 ms old. -/
def CommandFresh (env : RosBus F) (r : Ros F) : Prop :=
  r.haveCmdVel ∧ env.clock r.wheels.ticks - r.lastCmdVelUs < commandTimeoutUs

/-- A stale command is braked, or the repeat timer is running. -/
theorem cmdVelWatchdog_cases (env : RosBus F) (r : Ros F) :
    CommandFresh env r ∧
        cmdVelWatchdog env r =
          { r with wheels := { r.wheels with ticks := r.wheels.ticks + 1 }, nextBrakeUs := 0 } ∨
      ¬CommandFresh env r ∧ r.nextBrakeUs ≤ env.clock r.wheels.ticks ∧
        cmdVelWatchdog env r =
          { r with
            wheels := brakeAll env.toBus { r.wheels with ticks := r.wheels.ticks + 1 }
            nextBrakeUs := env.clock r.wheels.ticks + commandWatchdogUs } ∨
      ¬CommandFresh env r ∧ env.clock r.wheels.ticks < r.nextBrakeUs ∧
        cmdVelWatchdog env r =
          { r with wheels := { r.wheels with ticks := r.wheels.ticks + 1 } } := by
  rw [cmdVelWatchdog]
  dsimp only
  by_cases hfresh : CommandFresh env r
  · exact .inl ⟨hfresh, if_pos hfresh⟩
  · right
    by_cases hdue : r.nextBrakeUs ≤ env.clock r.wheels.ticks
    · exact .inl ⟨hfresh, hdue, (if_neg hfresh).trans (if_pos hdue)⟩
    · exact .inr ⟨hfresh, UInt64.not_le.mp hdue, (if_neg hfresh).trans (if_neg hdue)⟩

omit [Double F] in
/-- The timer runs only while nothing moves: it ends long before the last command
could become stale. -/
theorem Watched.still (h : Watched env r) (hstale : ¬CommandFresh env r)
    (hwait : env.clock r.wheels.ticks < r.nextBrakeUs) : r.wheels.motionEnabled = false := by
  by_contra hm
  rw [Bool.not_eq_false] at hm
  have hlast := h.last r.wheels.ticks (Nat.le_refl _)
  have hbrake := h.brake hm
  -- with a command in force the timer ends 300 ms before the command is stale
  have hexpired : commandTimeoutUs ≤ env.clock r.wheels.ticks - r.lastCmdVelUs := by
    by_contra hnot
    exact hstale ⟨(h.live hm).2.1, UInt64.not_le.mp hnot⟩
  rw [Clock.le_sub_iff hlast] at hexpired
  rw [Clock.lt_iff] at hwait
  have hlimit : commandTimeoutUs.toNat = 500000 := rfl
  omega

theorem cmdVelWatchdog_watched (h : Watched env r) : Watched env (cmdVelWatchdog env r) := by
  rcases cmdVelWatchdog_cases env r with ⟨-, hr⟩ | ⟨-, -, hr⟩ | ⟨-, -, hr⟩
  · rw [hr]
    exact
      { live := h.live
        timer := fun _ _ => Nat.zero_le _
        brake := fun _ => Nat.zero_le _
        last := fun k hk => h.last k (Nat.le_of_succ_le hk) }
  · rw [hr]
    have hticks := (brakeAll_extends env.toBus { r.wheels with ticks := r.wheels.ticks + 1 }).ticks
    have hstill (w : Wheels F) : ¬(brakeAll env.toBus w).motionEnabled = true := by simp
    refine { live := ?_, timer := ?_, brake := ?_, last := ?_ }
    · intro hm
      exact absurd hm (hstill _)
    · -- the timer is set at this reading, and every later one is at least as late
      intro k hk
      have hlate : r.wheels.ticks + 1 ≤ k := hticks.trans hk
      have hread : env.clock r.wheels.ticks ≤ env.clock k :=
        env.clock_mono _ _ (Nat.le_of_succ_le hlate)
      calc (env.clock r.wheels.ticks + commandWatchdogUs).toNat
          ≤ (env.clock r.wheels.ticks).toNat + 200000 := Clock.toNat_add_le _ commandWatchdogUs
        _ ≤ (env.clock k).toNat + 200000 := Nat.add_le_add_right (Clock.le_iff.mp hread) _
    · intro hm
      exact absurd hm (hstill _)
    · intro k hk
      exact h.last k (Nat.le_of_succ_le (hticks.trans hk))
  · rw [hr]
    exact h.extended id id (fun _ hlive => hlive) (Nat.le_succ _) rfl rfl rfl

/-! ### The rest of an iteration -/

/-- Sampling the IMU changes the estimator and reads the clock. -/
theorem sampleImu_wheels (env : RosBus F) (r : Ros F) :
    (sampleImu env r).wheels.motionEnabled = r.wheels.motionEnabled ∧
      (sampleImu env r).wheels.trace = r.wheels.trace ∧
      r.wheels.ticks ≤ (sampleImu env r).wheels.ticks := by
  rw [sampleImu]
  dsimp only
  split
  · exact ⟨rfl, rfl, Nat.le_succ _⟩
  · exact ⟨rfl, rfl, Nat.le_add_right _ 2⟩

theorem sampleImu_watched (h : Watched env r) : Watched env (sampleImu env r) := by
  obtain ⟨hmotion, htrace, hticks⟩ := sampleImu_wheels env r
  have hgyro : r.wheels.gyro.calibrated → (sampleImu env r).wheels.gyro.calibrated := by
    intro hcalibrated
    rw [sampleImu]
    dsimp only
    split
    · exact hcalibrated
    · exact gyroYawObserve_calibrated hcalibrated
  refine h.extended (by rw [hmotion]; exact id) hgyro ?_ hticks ?_ ?_ ?_
  · intro _ hlive
    rw [htrace]
    exact hlive
  all_goals
    rw [sampleImu]
    dsimp only
    split <;> rfl

theorem rosLoop_watched (h : Watched env r) : Watched env (rosLoop env r) := by
  have hsampled := sampleImu_watched (cmdVelWatchdog_watched (spinOnce_watched h))
  unfold rosLoop
  dsimp only
  generalize sampleImu env (cmdVelWatchdog env (spinOnce env r)) = s at hsampled ⊢
  rcases wheelsUpdate_cases env.toBus s.wheels with
    ⟨hext, hmotion⟩ | ⟨hmoving, hext, hmotion⟩ | ⟨hmoving, w, hext, hbraked⟩
  · refine hsampled.extended (by rw [← hmotion]; exact id) (by rw [← hext.gyro]; exact id)
      ?_ hext.ticks rfl rfl rfl
    intro _ hlive
    exact hlive.extends (hext.mono fun _ => And.right)
  · exact hsampled.extended (fun _ => hmoving) (by rw [← hext.gyro]; exact id)
      (fun _ hlive => hlive.extends hext) hext.ticks rfl rfl rfl
  · refine hsampled.stopped ?_ ?_ rfl rfl
    · exact hbraked ▸ brakeAll_motionEnabled w
    · exact hbraked ▸ hext.ticks.trans (brakeAll_extends env.toBus w).ticks

theorem rosRun_watched (env : RosBus F) (header : Option (CalibrationParameters F)) (n : ℕ) :
    Watched env (rosRun env header n) := by
  induction n with
  | zero => exact rosSetup_watched env header
  | succ n ih =>
    rw [rosRun_succ]
    exact rosLoop_watched ih

/-! ### The watchdog's promise -/

/-- Motion is allowed at `now`: the gyro is calibrated, and a command accepted less
than 500 ms before is still live. -/
def MotionAllowed (r : Ros F) (now : UInt64) : Prop :=
  r.wheels.gyro.calibrated ∧ r.haveCmdVel ∧
    ∃ t, LiveCommand r.wheels.trace t ∧ t ≤ now ∧ now - t < commandTimeoutUs

/-- After the watchdog's call motion is enabled only if it is allowed. -/
theorem cmdVelWatchdog_allowed (h : Watched env r)
    (hm : (cmdVelWatchdog env r).wheels.motionEnabled) :
    MotionAllowed (cmdVelWatchdog env r) (env.clock r.wheels.ticks) := by
  rcases cmdVelWatchdog_cases env r with ⟨hfresh, hr⟩ | ⟨-, -, hr⟩ | ⟨hstale, hwait, hr⟩
  · rw [hr] at hm ⊢
    obtain ⟨hcalibrated, hhave, hlive⟩ := h.live hm
    exact ⟨hcalibrated, hhave, r.lastCmdVelUs, hlive, h.last _ (Nat.le_refl _), hfresh.2⟩
  · rw [hr] at hm
    simp at hm
  · rw [hr] at hm
    have hstill := h.still hstale hwait
    exact absurd hm (by simp [hstill])

/-- After every call of the watchdog, at a reading `now`, motion is enabled only
with a calibrated gyro and a command accepted less than 500 ms before, not followed
by a brake or a calibration restart; and an iteration whose watchdog finds no such
command sends no velocity frame after it. -/
theorem command_watchdog (env : RosBus F) (header : Option (CalibrationParameters F)) (n : ℕ) :
    let before := spinOnce env (rosRun env header n)
    let now := env.clock before.wheels.ticks
    let r := cmdVelWatchdog env before
    (r.wheels.motionEnabled → MotionAllowed r now) ∧
      (¬MotionAllowed r now → ∃ new, (rosRun env header (n + 1)).wheels.trace =
        new ++ r.wheels.trace ∧ ∀ e ∈ new, e.isVelocity = false) := by
  intro before now r
  have hwatched : Watched env before := spinOnce_watched (rosRun_watched env header n)
  refine ⟨cmdVelWatchdog_allowed hwatched, ?_⟩
  intro hnot
  have hstill : r.wheels.motionEnabled = false := by
    by_contra hm
    exact hnot (cmdVelWatchdog_allowed hwatched (by simpa using hm))
  obtain ⟨hmotion, htrace, -⟩ := sampleImu_wheels env r
  have hnext : (rosRun env header (n + 1)).wheels =
      wheelsUpdate env.toBus (sampleImu env r).wheels := by
    rw [rosRun_succ]
    rfl
  rw [hnext, ← htrace]
  rcases wheelsUpdate_cases env.toBus (sampleImu env r).wheels with
    ⟨hext, -⟩ | ⟨hmoving, -⟩ | ⟨hmoving, -⟩
  · obtain ⟨new, hnew, hquiet⟩ := hext.trace
    exact ⟨new, hnew, fun e he => (hquiet e he).1⟩
  -- the other outcomes need motion, which the watchdog has just taken away
  all_goals
    rw [hmotion, hstill] at hmoving
    cases hmoving

end Watchdog
