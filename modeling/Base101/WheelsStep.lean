/-
What an operation on the wheels leaves alone.

`Extends P w w'` says that `w'` comes after `w` with the same estimator and the
same parameters, and that the events recorded in between all satisfy `P`.  It
composes, so each function of `wheels.c` needs one line of its own.

* `wheelsUpdate_cases` — an update is quiet, or goes on with the motion, or brakes
  all wheels;
* `wheelsConfigureCalibration_cases` — a configuration is refused as a whole or
  taken as a whole.
-/
import Base101.Wheels

open Double Function

/-- The event sets a wheel in motion. -/
def WheelEvent.isVelocity : WheelEvent → Bool
  | .sent _ (.velocity _ _) => true
  | _ => false

/-- The event withdraws the last command. -/
def WheelEvent.isStop : WheelEvent → Bool
  | .braked _ | .restarted => true
  | _ => false

/-- What `wheels_get_parameters` reads. -/
structure SameParameters {F : Type} (w w' : Wheels F) : Prop where
  cfg : w'.controller.cfg = w.controller.cfg
  motorRamp : w'.motorRamp = w.motorRamp
  gyroConfig : w'.gyroConfig = w.gyroConfig

theorem SameParameters.trans {F : Type} {w w' w'' : Wheels F} (h : SameParameters w w')
    (h' : SameParameters w' w'') : SameParameters w w'' :=
  ⟨h'.cfg.trans h.cfg, h'.motorRamp.trans h.motorRamp, h'.gyroConfig.trans h.gyroConfig⟩

theorem SameParameters.eq {F : Type} [Double F] {w w' : Wheels F} (h : SameParameters w w') :
    wheelsGetParameters w' = wheelsGetParameters w := by
  rw [wheelsGetParameters, wheelsGetParameters, h.cfg, h.motorRamp, h.gyroConfig]

/-- `w'` comes after `w`, and what was recorded in between satisfies `P`. -/
structure Extends {F : Type} (P : WheelEvent → Prop) (w w' : Wheels F) : Prop where
  trace : ∃ new, w'.trace = new ++ w.trace ∧ ∀ e ∈ new, P e
  ticks : w.ticks ≤ w'.ticks
  gyro : w'.gyro = w.gyro
  parameters : SameParameters w w'

section Extends

variable {F : Type} {P Q : WheelEvent → Prop} {w w' w'' : Wheels F}

/-- Nothing recorded. -/
theorem Extends.of_trace_eq (htrace : w'.trace = w.trace) (hticks : w.ticks ≤ w'.ticks)
    (hgyro : w'.gyro = w.gyro) (hparameters : SameParameters w w') : Extends P w w' :=
  ⟨⟨[], htrace, fun _ h => absurd h List.not_mem_nil⟩, hticks, hgyro, hparameters⟩

theorem Extends.refl (w : Wheels F) : Extends P w w :=
  .of_trace_eq rfl (Nat.le_refl _) rfl ⟨rfl, rfl, rfl⟩

theorem Extends.trans (h : Extends P w w') (h' : Extends P w' w'') : Extends P w w'' := by
  obtain ⟨new, htrace, hnew⟩ := h.trace
  obtain ⟨new', htrace', hnew'⟩ := h'.trace
  refine ⟨⟨new' ++ new, ?_, ?_⟩, h.ticks.trans h'.ticks, h'.gyro.trans h.gyro,
    h.parameters.trans h'.parameters⟩
  · rw [htrace', htrace, List.append_assoc]
  · intro e he
    rcases List.mem_append.mp he with he | he
    · exact hnew' e he
    · exact hnew e he

theorem Extends.mono (h : Extends P w w') (hPQ : ∀ e, P e → Q e) : Extends Q w w' := by
  obtain ⟨new, htrace, hnew⟩ := h.trace
  refine ⟨⟨new, htrace, ?_⟩, h.ticks, h.gyro, h.parameters⟩
  intro e he
  exact hPQ e (hnew e he)

/-- A loop whose steps extend. -/
theorem Extends.foldl {f : Wheels F → Fin 4 → Wheels F} (hf : ∀ w i, Extends P w (f w i))
    (is : List (Fin 4)) (w : Wheels F) : Extends P w (is.foldl f w) := by
  induction is generalizing w with
  | nil => exact .refl w
  | cons i is ih => exact (hf w i).trans (ih (f w i))

/-- A loop whose steps leave the motion flag alone. -/
theorem foldl_motionEnabled {f : Wheels F → Fin 4 → Wheels F}
    (hf : ∀ w i, (f w i).motionEnabled = w.motionEnabled) (is : List (Fin 4)) (w : Wheels F) :
    (is.foldl f w).motionEnabled = w.motionEnabled := by
  induction is generalizing w with
  | nil => rfl
  | cons i is ih => rw [List.foldl_cons, ih, hf]

end Extends

section Operations

variable {F : Type} [Double F] (env : Bus)

/-- Neither a velocity frame nor a stop. -/
def WheelEvent.Quiet (e : WheelEvent) : Prop := e.isVelocity = false ∧ e.isStop = false

theorem saveFeedback_extends {P : WheelEvent → Prop} (w : Wheels F) (i : Fin 4) (fb : MotorReply) :
    Extends P w (saveFeedback env w i fb) := by
  refine .of_trace_eq rfl ?_ rfl ⟨rfl, rfl, rfl⟩
  show w.ticks ≤ if fb.valid then w.ticks + 1 else w.ticks
  split <;> omega

omit [Double F] in
/-- A frame records itself. -/
theorem exchange_extends {P : WheelEvent → Prop} (w : Wheels F) (i : Fin 4) (frame : Frame)
    (h : P (.sent i frame)) : Extends P w (exchange env w i frame).2 :=
  ⟨⟨[.sent i frame], rfl, by simpa using h⟩, Nat.le_refl _, rfl, ⟨rfl, rfl, rfl⟩⟩

theorem brakeFeedback_extends (w : Wheels F) (i : Fin 4) :
    Extends WheelEvent.Quiet w (brakeFeedback env w i) :=
  (exchange_extends env w i .brake ⟨rfl, rfl⟩).trans (saveFeedback_extends env _ i _)

theorem wheelsBrake_extends (w : Wheels F) (i : Fin 4) :
    Extends (fun e => e.isVelocity = false) w (wheelsBrake env w i) := by
  have hstop : Extends (fun e => e.isVelocity = false) w (stopMotion env w i) :=
    ⟨⟨[.braked i], rfl, by simp [WheelEvent.isVelocity]⟩, Nat.le_succ _, rfl, ⟨rfl, rfl, rfl⟩⟩
  rw [wheelsBrake]
  split
  · exact hstop
  · refine hstop.trans (Extends.trans ?_ ((brakeFeedback_extends env _ i).mono fun _ => And.left))
    exact .of_trace_eq rfl (Nat.le_refl _) rfl ⟨rfl, rfl, rfl⟩

theorem brakeAll_extends (w : Wheels F) :
    Extends (fun e => e.isVelocity = false) w (brakeAll env w) :=
  .foldl (wheelsBrake_extends env) wheelIndices w

theorem brakeOnline_extends (w : Wheels F) (now : UInt64) :
    Extends WheelEvent.Quiet w (brakeOnline env w now) := by
  have hstep (w : Wheels F) (i : Fin 4) :
      Extends WheelEvent.Quiet w (if !w.online i then w else brakeFeedback env w i) := by
    split
    · exact .refl w
    · exact brakeFeedback_extends env w i
  have hstart : Extends WheelEvent.Quiet w { w with nextUpdateUs := now + wheelControlUs } :=
    .of_trace_eq rfl (Nat.le_refl _) rfl ⟨rfl, rfl, rfl⟩
  exact hstart.trans (.foldl hstep wheelIndices _)

@[simp] theorem brakeOnline_motionEnabled (w : Wheels F) (now : UInt64) :
    (brakeOnline env w now).motionEnabled = w.motionEnabled :=
  foldl_motionEnabled (fun w i => by split <;> rfl) wheelIndices _

theorem sendSpeed_extends (w : Wheels F) (i : Fin 4) (rate : F) :
    Extends (fun e => e.isStop = false) w (sendSpeed env w i rate).1 := by
  rw [sendSpeed]
  split
  · exact .refl w
  · have hframe := exchange_extends (P := fun e => e.isStop = false) env w i
      (.velocity (speedUnits w.controller.cfg i rate) w.motorRamp) rfl
    exact hframe.trans (saveFeedback_extends env _ i _)

/-- What the loop of setpoints does not touch. -/
structure SameMotion (w w' : Wheels F) : Prop where
  motion : w'.motionEnabled = w.motionEnabled
  braked : w'.braked = w.braked
  online : w'.online = w.online

omit [Double F] in
theorem SameMotion.trans {w w' w'' : Wheels F} (h : SameMotion w w') (h' : SameMotion w' w'') :
    SameMotion w w'' :=
  ⟨h'.motion.trans h.motion, h'.braked.trans h.braked, h'.online.trans h.online⟩

theorem sendSpeed_sameMotion (w : Wheels F) (i : Fin 4) (rate : F) :
    SameMotion w (sendSpeed env w i rate).1 := by
  rw [sendSpeed]
  split
  · exact ⟨rfl, rfl, rfl⟩
  · exact ⟨rfl, rfl, rfl⟩

/-- The loop of setpoints brakes all after some of them, or leaves the motion as it
is. -/
theorem sendSpeeds_cases (left right : F) (is : List (Fin 4)) (w : Wheels F) :
    (∃ w', Extends (fun e => e.isStop = false) w w' ∧
        sendSpeeds env left right is w = brakeAll env w') ∨
      Extends (fun e => e.isStop = false) w (sendSpeeds env left right is w) ∧
        SameMotion w (sendSpeeds env left right is w) := by
  induction is generalizing w with
  | nil => exact .inr ⟨.refl w, rfl, rfl, rfl⟩
  | cons i is ih =>
    have through (w' : Wheels F) (h : Extends (fun e => e.isStop = false) w w')
        (hsame : SameMotion w w') :
        (∃ w'', Extends (fun e => e.isStop = false) w w'' ∧
            sendSpeeds env left right is w' = brakeAll env w'') ∨
          Extends (fun e => e.isStop = false) w (sendSpeeds env left right is w') ∧
            SameMotion w (sendSpeeds env left right is w') := by
      rcases ih w' with ⟨w'', hw'', hbraked⟩ | ⟨hsent, hsame'⟩
      · exact .inl ⟨w'', h.trans hw'', hbraked⟩
      · exact .inr ⟨h.trans hsent, hsame.trans hsame'⟩
    have htarget : Extends (fun e => e.isStop = false) w
        { w with target := update w.target i (sideRate left right i) } :=
      .of_trace_eq rfl (Nat.le_refl _) rfl ⟨rfl, rfl, rfl⟩
    have hsent := htarget.trans (sendSpeed_extends env _ i (sideRate left right i))
    have hsame := sendSpeed_sameMotion env
      { w with target := update w.target i (sideRate left right i) } i (sideRate left right i)
    rw [sendSpeeds]
    dsimp only
    -- the wheel is skipped, or fails, or gets its setpoint
    split
    · split
      · exact .inl ⟨_, hsent, rfl⟩
      · exact through _ hsent ⟨hsame.motion, hsame.braked, hsame.online⟩
    · exact through _ htarget ⟨rfl, rfl, rfl⟩

/-! ### Updates -/

/-- The checks compute the next controller with the same configuration. -/
theorem updateTargets_cfg {w : Wheels F} {now : UInt64} {dt : F} {out : Glide F × F × F}
    (h : updateTargets w now dt = some out) : out.1.cfg = w.controller.cfg := by
  simp only [updateTargets, Option.bind_eq_bind, Option.bind_eq_some_iff] at h
  obtain ⟨yawRate, -, twist, -, hupdate⟩ := h
  exact glideUpdate_cfg hupdate

/-- The update is due: motion is enabled and the clock has advanced far enough. -/
def UpdateDue (env : Bus) (w : Wheels F) : Prop :=
  w.motionEnabled ∧ ¬env.clock w.ticks < w.nextUpdateUs ∧
    ¬(w.lastUpdateUs ≠ 0 ∧ env.clock w.ticks ≤ w.lastUpdateUs)

variable {env} {w : Wheels F}

theorem wheelsUpdate_due (h : UpdateDue env w) :
    wheelsUpdate env w = advanceMotion env { w with ticks := w.ticks + 1 } (env.clock w.ticks) := by
  obtain ⟨hmotion, hnext, hlast⟩ := h
  rw [wheelsUpdate]
  dsimp only
  rw [if_neg hnext, if_neg (by simp [hmotion]), if_neg hlast]

/-- An update that is not due reads the clock, or brakes a robot that stands still. -/
theorem wheelsUpdate_not_due (h : ¬UpdateDue env w) :
    wheelsUpdate env w = { w with ticks := w.ticks + 1 } ∨
      w.motionEnabled = false ∧
        wheelsUpdate env w =
          brakeOnline env { w with ticks := w.ticks + 1 } (env.clock w.ticks) := by
  rw [wheelsUpdate]
  dsimp only
  split
  · exact .inl rfl
  next hnext =>
    split
    next hmotion => exact .inr ⟨by simpa using hmotion, rfl⟩
    next hmotion =>
      rw [if_pos]
      · exact .inl rfl
      · by_contra hlast
        exact h ⟨by simpa using hmotion, hnext, hlast⟩

/-- Advancing the motion brakes all wheels, or leaves the motion enabled. -/
theorem advanceMotion_cases (hmotion : w.motionEnabled) (now : UInt64) :
    (∃ w', Extends (fun e => e.isStop = false) w w' ∧ advanceMotion env w now = brakeAll env w') ∨
      Extends (fun e => e.isStop = false) w (advanceMotion env w now) ∧
        (advanceMotion env w now).motionEnabled ∧ (advanceMotion env w now).braked = w.braked := by
  rw [advanceMotion]
  dsimp only
  split
  · exact .inl ⟨_, .of_trace_eq rfl (Nat.le_refl _) rfl ⟨rfl, rfl, rfl⟩, rfl⟩
  next controller left right htargets =>
    have hstart : Extends (fun e => e.isStop = false) w
        { w with lastUpdateUs := now, nextUpdateUs := now + wheelControlUs, controller } :=
      .of_trace_eq rfl (Nat.le_refl _) rfl ⟨updateTargets_cfg htargets, rfl, rfl⟩
    rcases sendSpeeds_cases env left right wheelIndices { w with
      lastUpdateUs := now, nextUpdateUs := now + wheelControlUs, controller }
      with ⟨w', hw', hbraked⟩ | ⟨hsent, hsame⟩
    · exact .inl ⟨w', hstart.trans hw', hbraked⟩
    · exact .inr ⟨hstart.trans hsent, hsame.motion.trans hmotion, hsame.braked⟩

variable (env) in
/-- The three outcomes of an update: quiet; motion that goes on with setpoints; or
all wheels braked, perhaps after some setpoints. -/
theorem wheelsUpdate_cases (w : Wheels F) :
    Extends WheelEvent.Quiet w (wheelsUpdate env w) ∧
        (wheelsUpdate env w).motionEnabled = w.motionEnabled ∨
      w.motionEnabled ∧ Extends (fun e => e.isStop = false) w (wheelsUpdate env w) ∧
        (wheelsUpdate env w).motionEnabled ∨
      w.motionEnabled ∧ ∃ w', Extends (fun e => e.isStop = false) w w' ∧
        wheelsUpdate env w = brakeAll env w' := by
  have hclock : Extends WheelEvent.Quiet w { w with ticks := w.ticks + 1 } :=
    .of_trace_eq rfl (Nat.le_succ _) rfl ⟨rfl, rfl, rfl⟩
  by_cases hdue : UpdateDue env w
  · -- the motion goes on, unless a check or a motor fails
    right
    rw [wheelsUpdate_due hdue]
    have hmotion : ({ w with ticks := w.ticks + 1 } : Wheels F).motionEnabled := hdue.1
    have hread := hclock.mono fun _ => And.right
    rcases advanceMotion_cases hmotion (env.clock w.ticks)
      with ⟨w', hw', hbraked⟩ | ⟨hsent, hmotion', -⟩
    · exact .inr ⟨hdue.1, w', hread.trans hw', hbraked⟩
    · exact .inl ⟨hdue.1, hread.trans hsent, hmotion'⟩
  · left
    rcases wheelsUpdate_not_due hdue with hread | ⟨hstill, hbrake⟩
    · rw [hread]
      exact ⟨hclock, rfl⟩
    · rw [hbrake]
      exact ⟨hclock.trans (brakeOnline_extends env _ _), brakeOnline_motionEnabled env _ _⟩

variable (env) in
/-- Whatever its outcome, an update takes time and sets no parameters. -/
theorem wheelsUpdate_ticks_parameters (w : Wheels F) :
    w.ticks ≤ (wheelsUpdate env w).ticks ∧ SameParameters w (wheelsUpdate env w) := by
  rcases wheelsUpdate_cases env w with ⟨hext, -⟩ | ⟨-, hext, -⟩ | ⟨-, w', hext, hbraked⟩
  · exact ⟨hext.ticks, hext.parameters⟩
  · exact ⟨hext.ticks, hext.parameters⟩
  · have hbrake := brakeAll_extends env w'
    rw [hbraked]
    exact ⟨hext.ticks.trans hbrake.ticks, hext.parameters.trans hbrake.parameters⟩

/-! ### Commands and calibration -/

variable (env)

/-- A command is refused and reads the clock, or starts motion; then the estimator
is calibrated and every wheel is fresh. -/
theorem wheelsSetVelocity_cases (w : Wheels F) (linear angular : F) :
    wheelsSetVelocity env w linear angular = ({ w with ticks := w.ticks + 1 }, false) ∨
      w.gyro.calibrated ∧ (wheelsMeasuredTwist w (env.clock w.ticks)).isSome ∧
        ∃ left right, wheelsSetVelocity env w linear angular =
          (startMotion { w with ticks := w.ticks + 1 } left right, true) := by
  rw [wheelsSetVelocity]
  dsimp only
  split
  next rate twist left right hrate htwist hallocate =>
    refine .inr ⟨calibrated_of_gyroYawGet hrate, ?_, left, right, rfl⟩
    exact Option.isSome_iff_exists.mpr ⟨twist, htwist⟩
  next => exact .inl rfl

variable {env}

@[simp] theorem wheelsBrake_motionEnabled (w : Wheels F) (i : Fin 4) :
    (wheelsBrake env w i).motionEnabled = false := by
  rw [wheelsBrake]
  split <;> rfl

/-- The last wheel of the loop is enough. -/
@[simp] theorem brakeAll_motionEnabled (w : Wheels F) : (brakeAll env w).motionEnabled = false :=
  wheelsBrake_motionEnabled _ 3

@[simp] theorem restart_motionEnabled (w : Wheels F) :
    (wheelsRestartGyroCalibration env w).motionEnabled = false :=
  brakeAll_motionEnabled _

theorem restart_ticks (w : Wheels F) :
    w.ticks ≤ (wheelsRestartGyroCalibration env w).ticks :=
  (brakeAll_extends env { w with trace := .restarted :: w.trace }).ticks

theorem restart_parameters (w : Wheels F) :
    SameParameters w (wheelsRestartGyroCalibration env w) := by
  have h := (brakeAll_extends env { w with trace := .restarted :: w.trace }).parameters
  exact ⟨h.cfg, h.motorRamp, h.gyroConfig⟩

/-! ### Offline wheels and configurations -/

variable (env)

/-- Probing the offline wheels brakes the ones that answer, and moves nothing. -/
theorem wheelsRetryOffline_extends (w : Wheels F) :
    Extends WheelEvent.Quiet w (wheelsRetryOffline env w) := by
  rw [wheelsRetryOffline]
  split
  · exact .refl w
  · refine .foldl ?_ wheelIndices w
    intro w i
    -- a brake, two queries and a brake with feedback, or only a part of them
    have hbrake : Extends WheelEvent.Quiet w (sendBrake w i) :=
      ⟨⟨[.sent i .brake], rfl, by simp [WheelEvent.Quiet, WheelEvent.isVelocity,
        WheelEvent.isStop]⟩, Nat.le_refl _, rfl, ⟨rfl, rfl, rfl⟩⟩
    have hquery (w : Wheels F) : Extends WheelEvent.Quiet w (getMode env w).2 :=
      .of_trace_eq rfl (Nat.le_refl _) rfl ⟨rfl, rfl, rfl⟩
    dsimp only
    split
    · exact .refl w
    · split
      · exact hbrake.trans (hquery _)
      · refine (hbrake.trans (hquery _)).trans ((hquery _).trans ?_)
        refine Extends.trans ?_ (brakeFeedback_extends env _ i)
        exact .of_trace_eq rfl (Nat.le_refl _) rfl ⟨rfl, rfl, rfl⟩

@[simp] theorem wheelsRetryOffline_motionEnabled (w : Wheels F) :
    (wheelsRetryOffline env w).motionEnabled = w.motionEnabled := by
  rw [wheelsRetryOffline]
  split
  · rfl
  · refine foldl_motionEnabled ?_ wheelIndices w
    intro w i
    dsimp only
    split
    · rfl
    · split <;> rfl

/-- The filter setting with the parameters taken. -/
def configuredGyro (old : GyroYawConfig F) (p : CalibrationParameters F) : GyroYawConfig F :=
  if old.lpfHz != p.lpf then { old with lpfHz := p.lpf } else old

/-- What `wheels_configure_calibration` checks before it takes the parameters. -/
structure Configurable (w : Wheels F) (now : UInt64) (p : CalibrationParameters F) : Prop where
  atRest : (wheelsGetDriveStatus w now).atRest
  still : w.motionEnabled = false
  parameters : parametersRefused p = false
  controller : glideInit (glideConfigOf p) = some (glideAtRest (glideConfigOf p))

/-- The parameters are in force, all of them. -/
structure Installed (old : GyroYawConfig F) (w : Wheels F) (p : CalibrationParameters F) :
    Prop where
  cfg : w.controller.cfg = glideConfigOf p
  motorRamp : w.motorRamp = toUInt8 p.ramp
  gyroConfig : w.gyroConfig = configuredGyro old p

theorem Installed.same {old : GyroYawConfig F} {w w' : Wheels F} {p : CalibrationParameters F}
    (h : Installed old w p) (hsame : SameParameters w w') : Installed old w' p :=
  ⟨hsame.cfg.trans h.cfg, hsame.motorRamp.trans h.motorRamp, hsame.gyroConfig.trans h.gyroConfig⟩

/-- The parameters have been taken, with motion disabled. -/
structure Configured (w w' : Wheels F) (p : CalibrationParameters F) : Prop where
  still : w'.motionEnabled = false
  ticks : w.ticks ≤ w'.ticks
  installed : Installed w.gyroConfig w' p

/-- A configuration is refused as a whole or taken as a whole. -/
theorem wheelsConfigureCalibration_cases (w : Wheels F) (p : CalibrationParameters F) :
    ¬Configurable w (env.clock w.ticks) p ∧
        wheelsConfigureCalibration env w p = ({ w with ticks := w.ticks + 1 }, false) ∨
      Configurable w (env.clock w.ticks) p ∧
        (wheelsConfigureCalibration env w p).2 = true ∧
        Configured w (wheelsConfigureCalibration env w p).1 p := by
  rw [wheelsConfigureCalibration]
  dsimp only
  split
  next hrest =>
    refine .inl ⟨?_, rfl⟩
    intro h
    have hmoving : (wheelsGetDriveStatus w (env.clock w.ticks)).motionEnabled = false := h.still
    simp [h.atRest, hmoving] at hrest
  next hrest =>
    simp only [Bool.or_eq_true, Bool.not_eq_eq_eq_not, Bool.not_true, not_or,
      Bool.not_eq_false, Bool.not_eq_true] at hrest
    split
    next hrefused => exact .inl ⟨fun h => by simp [h.parameters] at hrefused, rfl⟩
    next htaken =>
      split
      next hnone => exact .inl ⟨fun h => by simp [h.controller] at hnone, rfl⟩
      next controller hsome =>
        obtain rfl := glideInit_eq_some hsome
        right
        refine ⟨⟨hrest.1, hrest.2, by simpa using htaken, hsome⟩, ?_⟩
        split
        next hlpf =>
          refine ⟨rfl, restart_motionEnabled _, ?_, ?_, ?_, ?_⟩
          · show w.ticks ≤ (wheelsRestartGyroCalibration env _).ticks
            refine (Nat.le_succ w.ticks).trans (le_of_eq_of_le ?_ (restart_ticks _))
            rfl
          · exact (restart_parameters _).cfg
          · exact (restart_parameters _).motorRamp
          · exact (restart_parameters _).gyroConfig.trans (if_pos hlpf).symm
        next hlpf => exact ⟨rfl, hrest.2, Nat.le_succ _, rfl, rfl, (if_neg hlpf).symm⟩

end Operations
