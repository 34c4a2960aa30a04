/-
What the calibration firmware reports, over exact arithmetic.

At start-up the parameters of `robot.h` are offered to the wheels within the
trial limits, and kept by the protocol whether or not the wheels took them.

* `configuration_all_or_nothing` — a line changes both layers to one complete,
  documented set, or neither;
* `reported_parameters_active` — what is reported is in force, provided the robot
  was found at rest at boot.
-/
import Base101.FirmwareLayers
import Base101.ParameterRanges

open Double CalibrationProtocol

section Exact

variable {K : Type} [Field K] [LinearOrder K] [IsStrictOrderedRing K] [FloorRing K] [Libm K]

/-! ### Start-up -/

/-- The parameters of `robot.h`, in force until the first configuration. -/
def bootParameters : CalibrationParameters K :=
  { ax := 0.7, jx := 2.0, aw := 3.0, jw := 10.0, kIcr := 1.5, radius := 0.0363
    separation := 0.2899, ramp := 1, rpmMax := 200, vxMax := 0.75, wzMax := 2.0, lpf := 20.0
    kp := 0.5, ki := 0.3, correctionMax := 0.5, deadband := 0.005, correctionAccel := 0.25
    correctionJerk := 1.0, yawFeedback := 0 }

/-- The same within the trial limits, which the protocol starts with. -/
def trialParameters : CalibrationParameters K :=
  { bootParameters with vxMax := 0.4, wzMax := 0.8 }

theorem robotConfig_wheelMax : (robotConfig : GlideConfig K).wheelMax = 200 * twoPi / 60 := by
  have hcap : fmin (200 : K) (((ddsm210MaxSpeedRaw : ℤ) : K) / 10.0) = 200 := by
    rw [ddsm210MaxSpeedRaw, fmin_exact]
    norm_num
  rw [robotConfig, hcap, fabs_wheelSpeedScale]
  norm_num

theorem glideInit_robotConfig :
    glideInit (robotConfig : GlideConfig K) = some (glideAtRest robotConfig) := by
  have hpi : (0 : K) < twoPi := twoPi_pos
  have hwheel : (0 : K) < (robotConfig : GlideConfig K).wheelMax := by
    rw [robotConfig_wheelMax]
    positivity
  have hpositive : ∀ x ∈ (robotConfig : GlideConfig K).positive, 0 < x := by
    simp only [GlideConfig.positive, List.forall_mem_cons]
    refine ⟨?_, ?_, ?_, hwheel, ?_, ?_, ?_, ?_, ?_, ?_, ?_, ?_, by simp⟩
    all_goals
      simp only [robotConfig]
      norm_num
  have hnonnegative : ∀ x ∈ (robotConfig : GlideConfig K).nonnegative, 0 ≤ x := by
    simp only [GlideConfig.nonnegative, List.forall_mem_cons]
    refine ⟨?_, ?_, ?_, ?_, by simp⟩
    all_goals
      simp only [robotConfig]
      norm_num
  exact glideInit_exact hpositive hnonnegative

/-- Probing a wheel leaves all but five fields alone. -/
theorem beginWheel_frame {F : Type} [Double F] (env : Bus) (image : Image) (w : Wheels F)
    (i : Fin 4) : ∃ bus online braked queries trace,
      beginWheel env image w i = { w with bus, online, braked, queries, trace } := by
  rw [beginWheel]
  dsimp only
  split
  · exact ⟨_, _, _, _, _, rfl⟩
  · cases image with
    | ros =>
      simp only [reduceCtorEq, if_false]
      split
      · exact ⟨_, _, _, _, _, rfl⟩
      · exact ⟨_, _, _, _, _, rfl⟩
    | calibration =>
      simp only [if_true, verifyMode]
      split
      · exact ⟨_, _, _, _, _, rfl⟩
      · -- the second query decides whether the wheel stays online
        split
        · exact ⟨_, _, _, _, _, rfl⟩
        · exact ⟨_, _, _, _, _, rfl⟩

/-- Probing a wheel sets no parameters. -/
theorem beginWheel_same {F : Type} [Double F] (env : Bus) (image : Image) (w : Wheels F)
    (i : Fin 4) : SameParameters w (beginWheel env image w i) := by
  obtain ⟨bus, online, braked, queries, trace, hprobe⟩ := beginWheel_frame env image w i
  rw [hprobe]
  exact ⟨rfl, rfl, rfl⟩

theorem foldl_beginWheel_same {F : Type} [Double F] (env : Bus) (image : Image)
    (is : List (Fin 4)) (w : Wheels F) : SameParameters w (is.foldl (beginWheel env image) w) := by
  refine List.foldlRecOn is _ ⟨rfl, rfl, rfl⟩ ?_
  intro w' h i _
  exact h.trans (beginWheel_same env image w' i)

/-- The controller of `robot.h` is in force after the start-up of the wheels. -/
theorem wheelsBoot_parameters (env : Bus) :
    wheelsGetParameters (wheelsBoot env .calibration none : Wheels K) = bootParameters := by
  have hbegin : SameParameters (beginController none (Wheels.initial : Wheels K)).1
      (wheelsBoot env .calibration none) := by
    refine SameParameters.trans ?_ (brakeAll_extends env _).parameters
    unfold wheelsBegin
    dsimp only
    split
    · exact ⟨rfl, rfl, rfl⟩
    · exact foldl_beginWheel_same env .calibration _ _
  rw [hbegin.eq, beginController, glideInit_robotConfig]
  have hrpm : Double.round ((robotConfig : GlideConfig K).wheelMax * fabs wheelSpeedScale * 60 /
      twoPi) = 200 := by
    have hpi : (twoPi : K) ≠ 0 := ne_of_gt twoPi_pos
    have hunits : (200 * twoPi / 60 * 1 * 60 / twoPi : K) = ((200 : ℤ) : K) := by
      push_cast
      field_simp
    rw [robotConfig_wheelMax, fabs_wheelSpeedScale, hunits, round_exact, roundHalfAway_intCast]
    norm_num
  rw [wheelsGetParameters]
  ext
  case rpmMax => exact hrpm
  case ramp => exact Nat.cast_one
  all_goals rfl

/-- The start-up parameters: `robot.h`, within the trial limits. -/
theorem startupParameters_boot (env : Bus) :
    startupParameters (wheelsBoot env .calibration none : Wheels K) =
      trialParameters := by
  have hvx : fmin (0.75 : K) 0.4 = 0.4 := by
    rw [fmin_exact]
    norm_num
  have hwz : fmin (2.0 : K) 0.8 = 0.8 := by
    rw [fmin_exact]
    norm_num
  rw [startupParameters, wheelsBoot_parameters]
  show ({ bootParameters with vxMax := fmin 0.75 0.4, wzMax := fmin 2.0 0.8 } :
    CalibrationParameters K) = _
  rw [hvx, hwz, trialParameters]

theorem startup_documented : (trialParameters : CalibrationParameters K).Documented := by
  constructor
  case rampIntegral => simp [trialParameters, bootParameters]
  case rpmMaxIntegral => simp [trialParameters, bootParameters]
  case yawFeedbackIntegral => simp [trialParameters, bootParameters]
  all_goals
    rw [inRange_exact]
    simp only [trialParameters, bootParameters]
    norm_num

/-- The at-rest check of the start-up configuration passes: every motor answers,
without an error, and stands still. -/
def BootsAtRest (env : FirmwareBus K) : Prop :=
  let wheels : Wheels K := wheelsBoot env.toBus .calibration none
  (wheelsGetDriveStatus wheels (env.clock wheels.ticks)).atRest

instance (env : FirmwareBus K) : Decidable (BootsAtRest env) :=
  inferInstanceAs (Decidable (_ = true))

/-- The protocol starts with the trial limits. -/
theorem firmwareBoot_parameters (env : FirmwareBus K) :
    (firmwareBoot env).state.parameters = trialParameters := by
  have hradius : ((0.0363 : K) == 0) = false := by
    rw [beq_eq_false_iff_ne]
    norm_num
  have hinit : (firmwareBoot env).state.parameters =
      (calibrationInit (startupParameters (wheelsBoot env.toBus .calibration none : Wheels K))
        ).parameters := rfl
  rw [hinit, startupParameters_boot]
  rw [calibrationInit]
  dsimp only
  rw [if_neg]
  simpa [trialParameters, bootParameters] using hradius

omit [IsStrictOrderedRing K] in
theorem firmwareBoot_outbox (env : FirmwareBus K) : (firmwareBoot env).outbox = [] := rfl

/-- The wheels start with them only from rest. -/
theorem firmwareBoot_active (env : FirmwareBus K) :
    (BootsAtRest env → wheelsGetParameters (firmwareBoot env).wheels =
        trialParameters) ∧
      (¬BootsAtRest env → wheelsGetParameters (firmwareBoot env).wheels = bootParameters) := by
  set wheels : Wheels K := wheelsBoot env.toBus .calibration none with hwheels
  have hstill : wheels.motionEnabled = false := brakeAll_motionEnabled _
  have hstartup : startupParameters wheels = trialParameters :=
    startupParameters_boot env.toBus
  have hconfigure : (firmwareBoot env).wheels =
      (wheelsConfigureCalibration env.toBus wheels (startupParameters wheels)).1 := rfl
  rw [hconfigure, hstartup]
  have hconfigurable := startup_documented.configurable_iff wheels (env.clock wheels.ticks)
  rcases wheelsConfigureCalibration_cases env.toBus wheels
    trialParameters with
    ⟨hnot, hrefused⟩ | ⟨htaken, -, hconfigured⟩
  · refine ⟨fun hrest => absurd (hconfigurable.mpr ⟨hrest, hstill⟩) hnot, ?_⟩
    intro _
    rw [hrefused]
    exact wheelsBoot_parameters env.toBus
  · refine ⟨fun _ => startup_documented.installed hconfigured.installed, ?_⟩
    intro hnot
    exact absurd htaken.atRest hnot

/-! ### A board to try -/

/-- A board whose motors stand still, and answer or not; the host sends `text`. -/
def hostBus (answers : Bool) (text : String) : FirmwareBus ℚ where
  clock k := UInt64.ofNat (min (50 * k) 1000000)
  clock_mono i j h := by
    have hlt (k : ℕ) : min (50 * k) 1000000 < UInt64.size := by
      have hcap := min_le_right (50 * k) 1000000
      have hsize : UInt64.size = 18446744073709551616 := rfl
      omega
    rw [UInt64.le_iff_toNat_le, UInt64.toNat_ofNat_of_lt' (hlt i),
      UInt64.toNat_ofNat_of_lt' (hlt j)]
    omega
  reply _ := { received := answers, feedback1 := 0, errorCode := 0, temperature := 25 }
  mode _ := if answers then ddsm210ModeVelocity else -1
  port _ := true
  imu _ := (true, { accel := ![0, 0, 9.80665], gyro := fun _ => 0, tempC := 25 })
  health _ := { sensorOnline := true, readSuccesses := 0, readFailures := 0 }
  mounted _ := true
  input k := (text.toList[k]?).map fun c => UInt8.ofNat c.toNat
  room _ := true

/-! ### All or nothing -/

/-- The protocol's parameters are documented at every moment. -/
theorem documented (env : FirmwareBus K) (n k : ℕ) :
    (lineState env n k).state.parameters.Documented := by
  have hcarried (fw fw' : Firmware K) (h : fw.state.parameters.Documented)
      (hfw : Carried fw fw') : fw'.state.parameters.Documented := by
    rw [hfw.protocol]
    exact h
  refine (firmware_invariant env hcarried ?_ ?_ n).2 k
  · intro fw h
    show (handleLine env fw).1.state.parameters.Documented
    rcases handleLine_layers env fw with hkept | ⟨r, p, -, hboth, -⟩
    · exact hcarried _ _ h hkept
    · rw [hboth.protocol]
      exact r.parameters_documented hboth.asked h
  · rw [firmwareBoot_parameters]
    exact startup_documented

/-- In every state a line can find, whatever the line: either neither layer changes,
or the line was a `set` or `config` accepted by both, the reply is `ok`, and both
layers hold exactly the complete set it asks for, inside the documented ranges.
Layers that agree still agree. -/
theorem configuration_all_or_nothing (env : FirmwareBus K) (n k : ℕ) (line : List Char)
    (overflow : Bool) :
    let fw : Firmware K := { lineState env n k with line, overflow }
    let out := handleLine env fw
    (SameLayers fw out.1 ∨
        ∃ r p, overflow = false ∧ Reconfigured env fw line r p out.1 ∧ out.2.isOk ∧
          p.Documented ∧ wheelsGetParameters out.1.wheels = p) ∧
      (fw.state.parameters = wheelsGetParameters fw.wheels →
        out.1.state.parameters = wheelsGetParameters out.1.wheels) := by
  intro fw out
  have hdocumented : fw.state.parameters.Documented := documented env n k
  rcases handleLine_layers env fw with hkept | ⟨r, p, hline, hboth, hok⟩
  · refine ⟨.inl hkept.toSameLayers, ?_⟩
    intro hsync
    rw [hkept.protocol, hsync, hkept.wheels.eq]
  · have hp : p.Documented := r.parameters_documented hboth.asked hdocumented
    have hactive : wheelsGetParameters out.1.wheels = p := hp.installed hboth.installed
    refine ⟨.inr ⟨r, p, hline, hboth, hok, hp, hactive⟩, ?_⟩
    intro _
    rw [hactive]
    exact hboth.protocol

/-- A session is open once ten characters have been read, and a `set` has arrived. -/
def setArrived : Firmware ℚ :=
  { lineState (hostBus true "1 hello 2\n") 0 10 with
    line := "2 set 1 2 3 10 1.5".toList, overflow := false }

/-- Both layers take it. -/
theorem configuration_taken :
    setArrived.state.parameters.ax = 7 / 10 ∧
      (handleLine (hostBus true "1 hello 2\n") setArrived).2.isOk ∧
      (handleLine (hostBus true "1 hello 2\n") setArrived).1.state.parameters.ax = 1 ∧
      (handleLine (hostBus true "1 hello 2\n") setArrived).1.state.parameters =
        wheelsGetParameters (handleLine (hostBus true "1 hello 2\n") setArrived).1.wheels := by
  have hsync : setArrived.state.parameters = wheelsGetParameters setArrived.wheels := by
    decide +kernel
  have hlayers := configuration_all_or_nothing (hostBus true "1 hello 2\n") 0 10
    "2 set 1 2 3 10 1.5".toList false
  exact ⟨by decide +kernel, by decide +kernel, by decide +kernel, hlayers.2 hsync⟩

/-! ### What is reported -/

/-- The layers agree, and so did every reply. -/
structure Synced (fw : Firmware K) : Prop where
  documented : fw.state.parameters.Documented
  layers : fw.state.parameters = wheelsGetParameters fw.wheels
  replies : ∀ sent ∈ fw.outbox, sent.Agrees

omit [IsStrictOrderedRing K] in
theorem Synced.carried {fw fw' : Firmware K} (h : Synced fw) (hfw : Carried fw fw') :
    Synced fw' where
  documented := by
    rw [hfw.protocol]
    exact h.documented
  layers := by
    rw [hfw.protocol, hfw.wheels.eq]
    exact h.layers
  replies := by
    rw [hfw.outbox]
    exact h.replies

/-- A line keeps the layers together, and so its reply tells the truth. -/
theorem Synced.answer {env : FirmwareBus K} {fw : Firmware K} (h : Synced fw) :
    Synced (answerLine env fw) := by
  have hhandled : Synced (handleLine env fw).1 := by
    rcases handleLine_layers env fw with hkept | ⟨r, p, -, hboth, -⟩
    · exact h.carried hkept
    · have hp : p.Documented := r.parameters_documented hboth.asked h.documented
      refine ⟨?_, ?_, ?_⟩
      · rw [hboth.protocol]
        exact hp
      · rw [hboth.protocol, hp.installed hboth.installed]
      · rw [hboth.outbox]
        exact h.replies
  have hreply {id : ℕ} {status : Status K} (hok : (handleLine env fw).2 = .ok id status) :=
    handleLine_reply hok
  rw [answerLine]
  generalize handleLine env fw = out at hhandled hreply ⊢
  refine ⟨hhandled.documented, hhandled.layers, ?_⟩
  rcases sendReply_outbox env out.1 out.2 with hdropped | ⟨sent, hsent, htext, hheld, hactive⟩
  · rw [hdropped]
    exact hhandled.replies
  · rw [hsent, List.forall_mem_cons]
    refine ⟨⟨?_, ?_⟩, hhandled.replies⟩
    · rw [hheld, hactive]
      exact hhandled.layers
    · intro id status hok
      rw [htext] at hok
      rw [hactive, ← hhandled.layers]
      exact hreply hok

/-- A `set` or `config` has been accepted. -/
def ConfiguredIn (history : List (Request × UInt64)) : Prop :=
  ∃ r ∈ history, (∃ values, r.1 = .set values) ∨ ∃ values, r.1 = .config values

/-- Until a configuration is accepted, the layers are as they were at boot. -/
def Unconfigured (env : FirmwareBus K) (fw : Firmware K) : Prop :=
  ConfiguredIn fw.protocol.history ∨
    SameLayers (firmwareBoot env) fw ∧ ∀ sent ∈ fw.outbox,
      sent.parameters = (firmwareBoot env).state.parameters ∧
        sent.active = wheelsGetParameters (firmwareBoot env).wheels

omit [IsStrictOrderedRing K] in
theorem Unconfigured.carried {env : FirmwareBus K} {fw fw' : Firmware K}
    (h : Unconfigured env fw) (hfw : Carried fw fw') : Unconfigured env fw' := by
  rcases h with ⟨r, hr, hset⟩ | ⟨hsame, hreplies⟩
  · exact .inl ⟨r, hfw.history.subset hr, hset⟩
  · refine .inr ⟨hsame.trans hfw.toSameLayers, ?_⟩
    rw [hfw.outbox]
    exact hreplies

omit [IsStrictOrderedRing K] in
theorem Unconfigured.answer {env : FirmwareBus K} {fw : Firmware K}
    (h : Unconfigured env fw) : Unconfigured env (answerLine env fw) := by
  have hhandled : Unconfigured env (handleLine env fw).1 := by
    rcases handleLine_layers env fw with hkept | ⟨r, p, -, hboth, -⟩
    · exact h.carried hkept
    · refine .inl ⟨_, hboth.history.subset List.mem_cons_self, ?_⟩
      have hasked := hboth.asked
      cases r with
      | set values => exact .inl ⟨values, rfl⟩
      | config values => exact .inr ⟨values, rfl⟩
      | _ => cases hasked
  rw [answerLine]
  generalize handleLine env fw = out at hhandled ⊢
  rcases hhandled with hconfigured | ⟨hsame, hreplies⟩
  · exact .inl hconfigured
  · refine .inr ⟨⟨hsame.protocol, hsame.wheels.trans ⟨rfl, rfl, rfl⟩⟩, ?_⟩
    rcases sendReply_outbox env out.1 out.2 with hdropped | ⟨sent, hsent, -, hheld, hactive⟩
    · rw [hdropped]
      exact hreplies
    · rw [hsent, List.forall_mem_cons]
      exact ⟨⟨hheld.trans hsame.protocol, hactive.trans hsame.wheels.eq⟩, hreplies⟩

/-- Over every run: if the robot is found at rest at boot, every reply reports the
parameters in force.  If it is not, every reply sent before the first accepted
`set` or `config` reports others. -/
theorem reported_parameters_active (env : FirmwareBus K) (n : ℕ) :
    (BootsAtRest env → ∀ sent ∈ (firmwareRun env n).outbox, sent.Agrees) ∧
      (¬BootsAtRest env → ¬ConfiguredIn (firmwareRun env n).protocol.history →
        ∀ sent ∈ (firmwareRun env n).outbox, ¬sent.Agrees) := by
  constructor
  · intro hrest
    have hboot : Synced (firmwareBoot env) := by
      refine ⟨?_, ?_, ?_⟩
      · rw [firmwareBoot_parameters]
        exact startup_documented
      · rw [firmwareBoot_parameters, (firmwareBoot_active env).1 hrest]
      · rw [firmwareBoot_outbox]
        exact List.forall_mem_nil _
    have hrun := (firmware_invariant env (fun _ _ h hfw => h.carried hfw) (fun _ h => h.answer)
      hboot n).1
    exact hrun.replies
  · intro hnot hnone sent hsent hagrees
    have hboot : Unconfigured env (firmwareBoot env) := by
      refine .inr ⟨⟨rfl, ⟨rfl, rfl, rfl⟩⟩, ?_⟩
      rw [firmwareBoot_outbox]
      exact List.forall_mem_nil _
    have hrun := (firmware_invariant env (fun _ _ h hfw => h.carried hfw) (fun _ h => h.answer)
      hboot n).1
    rcases hrun with hconfigured | ⟨-, hreplies⟩
    · exact hnone hconfigured
    · obtain ⟨hheld, hactive⟩ := hreplies sent hsent
      -- the layers already differ in the largest forward velocity
      have hsame : sent.parameters.vxMax = sent.active.vxMax := by rw [hagrees.1]
      rw [hheld, hactive, firmwareBoot_parameters, (firmwareBoot_active env).2 hnot] at hsame
      have hlimit : (0.4 : K) = 0.75 := hsame
      norm_num at hlimit

/-- With all motors at rest the only reply sent tells the truth. -/
theorem reported_parameters_at_rest :
    BootsAtRest (hostBus true "1 status\n") ∧
      (firmwareRun (hostBus true "1 status\n") 1).outbox.length = 1 ∧
      ∀ sent ∈ (firmwareRun (hostBus true "1 status\n") 1).outbox, sent.Agrees := by
  have hrest : BootsAtRest (hostBus true "1 status\n") := by decide +kernel
  exact ⟨hrest, by decide +kernel,
    (reported_parameters_active (hostBus true "1 status\n") 1).1 hrest⟩

/-- Without motors the reply reports a limit of 0.4 m/s while 0.75 m/s is in force. -/
theorem reported_parameters_stale :
    ((firmwareRun (hostBus false "1 status\n") 1).outbox.map fun sent =>
        (sent.reply.isOk, sent.parameters.vxMax, sent.active.vxMax)) =
        [(true, 4 / 10, 3 / 4)] ∧
      ¬∀ (env : FirmwareBus ℚ) (n : ℕ), ∀ sent ∈ (firmwareRun env n).outbox, sent.Agrees := by
  have hsent : ((firmwareRun (hostBus false "1 status\n") 1).outbox.map fun sent =>
      (sent.reply.isOk, sent.parameters.vxMax, sent.active.vxMax)) = [(true, 4 / 10, 3 / 4)] := by
    decide +kernel
  refine ⟨hsent, ?_⟩
  intro hall
  have hagrees := hall (hostBus false "1 status\n") 1
  generalize (firmwareRun (hostBus false "1 status\n") 1).outbox = outbox at hsent hagrees
  obtain ⟨sent, rfl, hvalues⟩ := List.map_eq_singleton_iff.mp hsent
  have hsame := (hagrees sent List.mem_cons_self).1
  rw [hsame] at hvalues
  simp only [Prod.mk.injEq] at hvalues
  obtain ⟨-, hlow, hhigh⟩ := hvalues
  rw [hlow] at hhigh
  norm_num at hhigh

end Exact
