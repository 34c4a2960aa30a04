/-
The encoders give back what was allocated.

A body velocity is allocated to the two sides, each rate is sent as a whole number of
0.1 RPM units, capped, and the motor reports its units.  The odometry puts the reports
together again.  The only loss is the rounding, half a unit at each wheel.

* `speedUnits_uncapped` — at the configured rates the cap never acts;
* `odometry_inverts_allocation` — the two body velocities that are read back, and the
  speeds they are read from, after any operations.
-/
import Base101.MeasuredSpeed
import Base101.Quantization

open Double Function

/-! ### Setpoints -/

section Setpoints

variable {F : Type} [Double F]

/-- The setpoint of a wheel in units of 0.1 RPM, before the cap. -/
def setpointUnits (i : Fin 4) (radPerSec : F) : ℤ :=
  lround (radPerSec * ((wheelTable i).direction : F) * wheelSpeedScale * 60.0 / twoPi * 10.0)

/-- The rates of the two sides, sent to all four wheels. -/
def sendAll (env : Bus) (rates : F × F) (w : Wheels F) : Wheels F :=
  wheelIndices.foldl (fun w i => (sendSpeed env w i (sideRate rates.1 rates.2 i)).1) w

/-- Every motor answers with the units it was sent, as a 16-bit number, and no error. -/
def AnswersAsSent (env : Bus) (rates : F × F) (w : Wheels F) : Prop :=
  ∀ i : Fin 4, (env.reply (w.frames + i)).valid ∧
    (env.reply (w.frames + i)).feedback1 =
      Int16.ofInt (speedUnits w.controller.cfg i (sideRate rates.1 rates.2 i))

end Setpoints

/-- One unit at the wheel, in rad/s. -/
noncomputable def wheelUnit : ℝ := twoPi / 600

theorem wheelUnit_pos : 0 < wheelUnit := div_pos twoPi_pos (by norm_num)

theorem wheelSpeedScale_real : (wheelSpeedScale : ℝ) = 1 := by
  rw [wheelSpeedScale]
  norm_num

theorem odomEncoderSign_real : (odomEncoderSign : ℝ) = 1 := by
  rw [odomEncoderSign]
  norm_num

theorem direction_mul_self (i : Fin 4) :
    ((wheelTable i).direction : ℝ) * (wheelTable i).direction = 1 := by
  fin_cases i <;> norm_num [wheelTable]

theorem abs_direction (i : Fin 4) : |((wheelTable i).direction : ℝ)| = 1 := by
  fin_cases i <;> norm_num [wheelTable]

theorem setpointUnits_eq (i : Fin 4) (rate : ℝ) :
    setpointUnits i rate = quantized wheelUnit (rate * (wheelTable i).direction) := by
  have hunits : rate * (wheelTable i).direction * wheelSpeedScale * 60.0 / twoPi * 10.0 =
      rate * (wheelTable i).direction / wheelUnit := by
    rw [wheelSpeedScale_real, wheelUnit, div_div_eq_mul_div]
    norm_num
    ring
  rw [setpointUnits, hunits]
  rfl

section Capped

variable {cfg : GlideConfig ℝ} {rate : ℝ}

/-- The cap in units, from the configured rate. -/
theorem cap_eq (cfg : GlideConfig ℝ) :
    lround (cfg.wheelMax * fabs (wheelSpeedScale : ℝ) * 600 / twoPi) =
      quantized wheelUnit cfg.wheelMax := by
  have hunits : cfg.wheelMax * fabs (wheelSpeedScale : ℝ) * 600 / twoPi =
      cfg.wheelMax / wheelUnit := by
    rw [fabs_wheelSpeedScale, wheelUnit, div_div_eq_mul_div, mul_one]
  rw [hunits]
  rfl

/-- It is 2000 units at most, below what the motors take. -/
theorem cap_le (hcfg : InForce cfg) : quantized wheelUnit cfg.wheelMax ≤ 2000 := by
  have hmax : |cfg.wheelMax| ≤ ((2000 : ℤ) : ℝ) * wheelUnit := by
    rw [abs_of_pos hcfg.accepted.wheelMax, wheelUnit]
    calc cfg.wheelMax ≤ 200 * twoPi / 60 := hcfg.wheelMax
      _ = ((2000 : ℤ) : ℝ) * (twoPi / 600) := by push_cast; ring
  calc quantized wheelUnit cfg.wheelMax ≤ |quantized wheelUnit cfg.wheelMax| := le_abs_self _
    _ ≤ quantized wheelUnit (((2000 : ℤ) : ℝ) * wheelUnit) := abs_quantized_le wheelUnit_pos hmax
    _ = 2000 := quantized_mul 2000 wheelUnit_pos

/-- A rate within the configured one stays within the cap. -/
theorem abs_setpointUnits_le (h : |rate| ≤ cfg.wheelMax) (i : Fin 4) :
    |setpointUnits i rate| ≤ quantized wheelUnit cfg.wheelMax := by
  rw [setpointUnits_eq]
  refine abs_quantized_le wheelUnit_pos ?_
  rwa [abs_mul, abs_direction, mul_one]

/-- **The cap never acts** on a rate within the configured one. -/
theorem speedUnits_uncapped (hcfg : InForce cfg) (h : |rate| ≤ cfg.wheelMax) (i : Fin 4) :
    speedUnits cfg i rate = setpointUnits i rate := by
  have hcap := cap_le hcfg
  rw [speedUnits, cap_eq, ddsm210MaxSpeedRaw,
    if_neg (by omega : ¬2100 < quantized wheelUnit cfg.wheelMax)]
  exact capped_of_abs_le (abs_setpointUnits_le h i)

/-- Nor does the conversion to 16 bits. -/
theorem speedUnits_int16 (hcfg : InForce cfg) (h : |rate| ≤ cfg.wheelMax) (i : Fin 4) :
    (Int16.ofInt (speedUnits cfg i rate)).toInt = setpointUnits i rate := by
  obtain ⟨hlow, hhigh⟩ := abs_le.mp (abs_setpointUnits_le h i)
  have hcap := cap_le hcfg
  rw [speedUnits_uncapped hcfg h]
  exact Int16.toInt_ofInt_of_le (by omega) (by omega)

end Capped

/-! ### Reports -/

/-- **Half a unit at the rim.**  A motor that reports the units of its setpoint gives the
rate back to within half a unit. -/
theorem reportedSpeed_near {cfg : GlideConfig ℝ} (hradius : 0 < cfg.radius) {i : Fin 4} {rate : ℝ}
    {fb : MotorReply} (hfb : fb.feedback1.toInt = setpointUnits i rate) :
    |reportedSpeed cfg i fb - rate * cfg.radius| ≤ cfg.radius * twoPi / 1200 := by
  set direction : ℝ := ((wheelTable i).direction : ℝ) with hdirection
  have hsquare : direction * direction = 1 := direction_mul_self i
  have hreport : reportedSpeed cfg i fb - rate * cfg.radius =
      (wheelUnit * quantized wheelUnit (rate * direction) - rate * direction) * direction *
        cfg.radius := by
    have hunit : (twoPi / 600.0 : ℝ) = wheelUnit := by
      rw [wheelUnit]
      norm_num
    rw [reportedSpeed, hfb, setpointUnits_eq, hunit, ← hdirection]
    -- the direction enters twice
    linear_combination rate * cfg.radius * hsquare
  have herror := abs_unit_mul_quantized_sub_le wheelUnit_pos (rate * direction)
  rw [hreport, abs_mul, abs_mul, hdirection, abs_direction, mul_one, abs_of_pos hradius]
  calc _ ≤ wheelUnit / 2 * cfg.radius := mul_le_mul_of_nonneg_right herror hradius.le
    _ = cfg.radius * twoPi / 1200 := by rw [wheelUnit]; ring

/-! ### Two sides -/

section Sides

variable {left right speed turn q width : ℝ}

/-- The mean of two values is as near as they are. -/
theorem mean_near {x y z : ℝ} (hx : |x - z| ≤ q) (hy : |y - z| ≤ q) : |(x + y) / 2 - z| ≤ q := by
  rw [abs_le] at hx hy ⊢
  constructor
  · linarith
  · linarith

/-- Two sides, each within `q` of its speed, give the linear and the angular velocity. -/
theorem sides_near (hleft : |left - (speed - turn)| ≤ q) (hright : |right - (speed + turn)| ≤ q)
    (hwidth : 0 < width) :
    |(left + right) * 0.5 - speed| ≤ q ∧
      |(right - left) / width - 2 * turn / width| ≤ 2 * q / width := by
  rw [abs_le] at hleft hright
  have hdifference : |right - left - 2 * turn| ≤ 2 * q := by
    rw [abs_le]
    constructor
    · linarith
    · linarith
  constructor
  · rw [abs_le]
    norm_num
    constructor
    · linarith
    · linarith
  · rw [← sub_div, abs_div, abs_of_pos hwidth]
    exact div_le_div_of_nonneg_right hdifference hwidth.le

end Sides

/-! ### The frames and their replies -/

section Frames

variable {F : Type} [Double F] {env : Bus}

/-- The wheel answered the `k`-th frame from `w` on. -/
structure Answered (env : Bus) (w w' : Wheels ℝ) (i : Fin 4) (k : ℕ) : Prop where
  measured : w'.measured i = reportedSpeed w.controller.cfg i (env.reply (w.frames + k))
  measuredUs : w'.measuredUs i = env.clock (w.ticks + k)
  measuredValid : w'.measuredValid i = true

/-- Frames to other wheels leave the measurement of a wheel alone. -/
structure SameReading (w w' : Wheels F) (j : Fin 4) : Prop where
  measured : w'.measured j = w.measured j
  measuredUs : w'.measuredUs j = w.measuredUs j
  measuredValid : w'.measuredValid j = w.measuredValid j

omit [Double F] in
theorem SameReading.trans {w w' w'' : Wheels F} {j : Fin 4} (h : SameReading w w' j)
    (h' : SameReading w' w'' j) : SameReading w w'' j :=
  ⟨h'.measured.trans h.measured, h'.measuredUs.trans h.measuredUs,
    h'.measuredValid.trans h.measuredValid⟩

theorem Answered.kept {w w' w'' : Wheels ℝ} {i : Fin 4} {k : ℕ} (h : Answered env w w' i k)
    (hkept : SameReading w' w'' i) : Answered env w w'' i k :=
  ⟨hkept.measured.trans h.measured, hkept.measuredUs.trans h.measuredUs,
    hkept.measuredValid.trans h.measuredValid⟩

/-- A setpoint and its valid reply. -/
structure SetpointSent (env : Bus) (w w' : Wheels ℝ) (i : Fin 4) : Prop where
  online : w'.online = w.online
  controller : w'.controller = w.controller
  frames : w'.frames = w.frames + 1
  ticks : w'.ticks = w.ticks + 1
  answered : Answered env w w' i 0
  others : ∀ j ≠ i, SameReading w w' j

theorem sendSpeed_sent {w : Wheels ℝ} {i : Fin 4} (hi : w.online i)
    (hvalid : (env.reply w.frames).valid) (rate : ℝ) :
    SetpointSent env w (sendSpeed env w i rate).1 i := by
  rw [sendSpeed, if_neg (by simp [hi])]
  refine ⟨rfl, rfl, rfl, ?_, ⟨?_, ?_, ?_⟩, ?_⟩
  · exact if_pos hvalid
  · show (if (env.reply w.frames).valid then update w.measured i _ else w.measured) i = _
    rw [if_pos hvalid, update_self]
    exact savedSpeed_eq w.controller.cfg i (env.reply w.frames)
  · show (if (env.reply w.frames).valid then update w.measuredUs i _ else w.measuredUs) i = _
    rw [if_pos hvalid, update_self]
    rfl
  · show update w.measuredValid i (env.reply w.frames).valid i = true
    rw [update_self, hvalid]
  · intro j hj
    refine ⟨?_, ?_, ?_⟩
    · show (if (env.reply w.frames).valid then update w.measured i _ else w.measured) j = _
      rw [if_pos hvalid, update_of_ne hj]
    · show (if (env.reply w.frames).valid then update w.measuredUs i _ else w.measuredUs) j = _
      rw [if_pos hvalid, update_of_ne hj]
    · show update w.measuredValid i _ j = _
      rw [update_of_ne hj]

/-- The loop, over wheels that are all different. -/
theorem foldl_sendSpeed_answered (rate : Fin 4 → ℝ) (is : List (Fin 4)) (hnodup : is.Nodup)
    (w : Wheels ℝ) (honline : ∀ i ∈ is, w.online i)
    (hvalid : ∀ k < is.length, (env.reply (w.frames + k)).valid) :
    let w' := is.foldl (fun w i => (sendSpeed env w i (rate i)).1) w
    w'.online = w.online ∧ w'.controller = w.controller ∧
      (∀ i ∈ is, Answered env w w' i (is.idxOf i)) ∧ ∀ j ∉ is, SameReading w w' j := by
  induction is generalizing w with
  | nil => exact ⟨rfl, rfl, nofun, fun _ _ => ⟨rfl, rfl, rfl⟩⟩
  | cons i is ih =>
    intro w'
    obtain ⟨hnot, hnodup⟩ := List.nodup_cons.mp hnodup
    have hsent : SetpointSent env w (sendSpeed env w i (rate i)).1 i :=
      sendSpeed_sent (honline i List.mem_cons_self) (hvalid 0 (by simp)) (rate i)
    set next := (sendSpeed env w i (rate i)).1 with hnext
    obtain ⟨honline', hcontroller', hanswered, hothers⟩ := ih hnodup next
      (fun j hj => by
        rw [hsent.online]
        exact honline j (List.mem_cons_of_mem i hj))
      (fun k hk => by
        rw [hsent.frames, Nat.add_assoc, Nat.add_comm 1 k]
        exact hvalid (k + 1) (by simpa using hk))
    have hfold : w' = is.foldl (fun w i => (sendSpeed env w i (rate i)).1) next := rfl
    rw [← hfold] at honline' hcontroller' hanswered hothers
    refine ⟨honline'.trans hsent.online, hcontroller'.trans hsent.controller, ?_, ?_⟩
    · intro j hj
      by_cases hij : j = i
      · -- the head has answered, and is not asked again
        rw [hij, List.idxOf_cons_self]
        exact hsent.answered.kept (hothers i hnot)
      · have hmem : j ∈ is := by simpa [hij] using hj
        have hlater := hanswered j hmem
        have hmeasured := hlater.measured
        have hmeasuredUs := hlater.measuredUs
        rw [hsent.controller, hsent.frames, Nat.add_assoc, Nat.add_comm 1] at hmeasured
        rw [hsent.ticks, Nat.add_assoc, Nat.add_comm 1] at hmeasuredUs
        rw [List.idxOf_cons_ne is (Ne.symm hij)]
        exact ⟨hmeasured, hmeasuredUs, hlater.measuredValid⟩
    · intro j hj
      rw [List.mem_cons, not_or] at hj
      exact (hsent.others j hj.1).trans (hothers j hj.2)

end Frames

/-! ### The body velocities -/

section Twists

variable {env : Bus} {w : Wheels ℝ} {now : UInt64}

/-- The front wheels, when both are fresh. -/
theorem wheelsOdometryTwist_fresh (hfresh : ∀ i, w.fresh now i = true) :
    wheelsOdometryTwist w now = some ((w.measured 0 + w.measured 1) * 0.5,
      (w.measured 1 - w.measured 0) / (w.controller.cfg.separation * w.controller.cfg.icr)) := by
  rw [wheelsOdometryTwist, if_neg (by simp [hfresh])]
  simp only [odomEncoderSign_real, mul_one]

theorem sideSpeed_eq (w : Wheels ℝ) :
    sideSpeed w true = (w.measured 0 + w.measured 2) / 2 ∧
      sideSpeed w false = (w.measured 1 + w.measured 3) / 2 := by
  have hleft : sideIndices true = [0, 2] := by decide
  have hright : sideIndices false = [1, 3] := by decide
  rw [sideSpeed, sideSpeed, hleft, hright]
  simp only [List.foldl_cons, List.foldl_nil, List.length_cons, List.length_nil,
    odomEncoderSign_real, mul_one, zero_add]
  norm_num

/-- All four wheels, when they are fresh. -/
theorem wheelsMeasuredTwist_fresh (hfresh : ∀ i, w.fresh now i = true) :
    wheelsMeasuredTwist w now = some (
      ((w.measured 0 + w.measured 2) / 2 + (w.measured 1 + w.measured 3) / 2) * 0.5,
      ((w.measured 1 + w.measured 3) / 2 - (w.measured 0 + w.measured 2) / 2) /
        w.controller.cfg.separation) := by
  rw [wheelsMeasuredTwist, if_neg (by simp [hfresh]), if_neg (by decide), (sideSpeed_eq w).1,
    (sideSpeed_eq w).2]

/-- The four replies come within the freshness window before `now`. -/
structure InWindow (env : Bus) (w : Wheels ℝ) (now : UInt64) : Prop where
  last : env.clock (w.ticks + 3) ≤ now
  age : now - env.clock w.ticks ≤ odomFeedbackMaxAgeUs

theorem InWindow.of_answered {w' : Wheels ℝ} (h : InWindow env w now) {i : Fin 4}
    (honline : w'.online i) (hanswered : Answered env w w' i i) : w'.fresh now i = true := by
  have hfirst : env.clock w.ticks ≤ env.clock (w.ticks + i) :=
    env.clock_mono _ _ (Nat.le_add_right _ _)
  have hlast : env.clock (w.ticks + i) ≤ now := by
    refine UInt64.le_trans (env.clock_mono _ _ ?_) h.last
    omega
  have hage : now - env.clock (w.ticks + i) ≤ odomFeedbackMaxAgeUs := by
    refine UInt64.le_trans ?_ h.age
    rw [UInt64.le_iff_toNat_le, UInt64.toNat_sub_of_le _ _ hlast,
      UInt64.toNat_sub_of_le _ _ (UInt64.le_trans hfirst hlast)]
    rw [UInt64.le_iff_toNat_le] at hfirst
    omega
  rw [Wheels.fresh, honline, hanswered.measuredValid, hanswered.measuredUs]
  simp [hlast, hage]

/-- The rates come back at every wheel, each within half a unit. -/
theorem sendAll_near (hcfg : InForce w.controller.cfg) {rates : ℝ × ℝ}
    (hrates : ∀ i, |sideRate rates.1 rates.2 i| ≤ w.controller.cfg.wheelMax)
    (honline : ∀ i, w.online i) (hanswers : AnswersAsSent env rates w) :
    (sendAll env rates w).controller = w.controller ∧
      (∀ now, InWindow env w now → ∀ i, (sendAll env rates w).fresh now i = true) ∧
      ∀ i, |(sendAll env rates w).measured i -
        sideRate rates.1 rates.2 i * w.controller.cfg.radius| ≤
          w.controller.cfg.radius * twoPi / 1200 := by
  have hvalid : ∀ k < wheelIndices.length, (env.reply (w.frames + k)).valid := by
    intro k hk
    exact (hanswers ⟨k, hk⟩).1
  obtain ⟨honline', hcontroller, hanswered, -⟩ := foldl_sendSpeed_answered
    (sideRate rates.1 rates.2) wheelIndices (by decide) w (fun i _ => honline i) hvalid
  have hindex : ∀ i : Fin 4, wheelIndices.idxOf i = i := by decide
  have hreply (i : Fin 4) : Answered env w (sendAll env rates w) i i := by
    have h := hanswered i (mem_wheelIndices i)
    rwa [hindex] at h
  refine ⟨hcontroller, ?_, ?_⟩
  · intro now hwindow i
    refine hwindow.of_answered ?_ (hreply i)
    show (sendAll env rates w).online i = true
    rw [sendAll, honline']
    exact honline i
  · intro i
    rw [(hreply i).measured]
    refine reportedSpeed_near hcfg.accepted.radius ?_
    rw [(hanswers i).2]
    exact speedUnits_int16 hcfg (hrates i) i

end Twists

/-! ### The allocation -/

/-- The two rates of an allocation. -/
noncomputable def allocatedRates (g : Glide ℝ) (correction : ℝ) : ℝ × ℝ :=
  ((glideAllocate g correction).1, (glideAllocate g correction).2.1)

/-- They are within the configured rate, saturated or not. -/
theorem abs_sideRate_allocated {g : Glide ℝ} (hcfg : g.cfg.Accepted) (correction : ℝ) (i : Fin 4) :
    |sideRate (allocatedRates g correction).1 (allocatedRates g correction).2 i| ≤
      g.cfg.wheelMax := by
  obtain ⟨-, -, -, -, -, -, hleft, hright⟩ := glideAllocate_scaled hcfg.wheelMax correction
  rw [sideRate]
  split
  · exact hleft
  · exact hright

/-- An allocation that does not saturate is the body velocity at the two rims. -/
theorem unsaturated_rates {g : Glide ℝ} (hcfg : g.cfg.Accepted)
    (hunsaturated : (glideAllocate g 0).2.2 = false) :
    let turn := g.yaw.velocity * g.cfg.icr * g.cfg.separation * 0.5
    (glideAllocate g 0).1 * g.cfg.radius = g.linear.velocity - turn ∧
      (glideAllocate g 0).2.1 * g.cfg.radius = g.linear.velocity + turn := by
  intro turn
  obtain ⟨scale, -, hle, hsaturated, hleft, hright, -, -⟩ :=
    glideAllocate_scaled hcfg.wheelMax (0 : ℝ)
  have hscale : scale = 1 := by
    refine le_antisymm hle (not_lt.mp ?_)
    rw [hsaturated, hunsaturated]
    simp
  have hturn : (g.yaw.velocity + 0) * g.cfg.icr * g.cfg.separation * 0.5 = turn := by
    rw [add_zero]
  rw [hleft, hright, hscale, one_mul, one_mul, glideWheelRates]
  dsimp only
  rw [hturn]
  exact ⟨div_mul_cancel₀ _ hcfg.radius.ne', div_mul_cancel₀ _ hcfg.radius.ne'⟩

/-- The turn at the rims, over the effective width and over the separation alone. -/
theorem turn_div {cfg : GlideConfig ℝ} (hcfg : cfg.Accepted) (ω : ℝ) :
    2 * (ω * cfg.icr * cfg.separation * 0.5) / (cfg.separation * cfg.icr) = ω ∧
      2 * (ω * cfg.icr * cfg.separation * 0.5) / cfg.separation = ω * cfg.icr := by
  have hseparation : cfg.separation ≠ 0 := hcfg.separation.ne'
  have hicr : cfg.icr ≠ 0 := hcfg.icr.ne'
  norm_num
  constructor
  · field_simp
  · field_simp

/-- Half a unit at the rim, as the code computes it. -/
noncomputable def rimHalfUnit (cfg : GlideConfig ℝ) : ℝ := cfg.radius * twoPi / 1200

/-- It is below half a unit, since `TWO_PI` is. -/
theorem rimHalfUnit_le {cfg : GlideConfig ℝ} (hradius : 0 < cfg.radius) :
    rimHalfUnit cfg ≤ cfg.radius * (2 * Real.pi) / 1200 := by
  have hpi : (twoPi : ℝ) ≤ 2 * Real.pi := by
    have h := Real.pi_gt_d20
    rw [twoPi]
    norm_num at h ⊢
    linarith
  rw [rimHalfUnit]
  gcongr

/-- What is read back of a body velocity `v`, `ω`, each wheel off by `q` at most. -/
structure ReadBack (cfg : GlideConfig ℝ) (q v ω : ℝ) (odometry measured : ℝ × ℝ) : Prop where
  odometryLinear : |odometry.1 - v| ≤ q
  odometryAngular : |odometry.2 - ω| ≤ 2 * q / (cfg.separation * cfg.icr)
  measuredLinear : |measured.1 - v| ≤ q
  measuredAngular : |measured.2 - ω * cfg.icr| ≤ 2 * q / cfg.separation

section ReadBack

variable {env : Bus} {w : Wheels ℝ} {now : UInt64} {linear yaw : MotionProfile ℝ}

/-- From a state with an accepted configuration, whatever was measured before. -/
theorem sendAll_readBack (hcfg : InForce w.controller.cfg)
    (hunsaturated : (glideAllocate { w.controller with linear, yaw } 0).2.2 = false)
    (honline : ∀ i, w.online i)
    (hanswers : AnswersAsSent env (allocatedRates { w.controller with linear, yaw } 0) w)
    (hwindow : InWindow env w now) :
    let w' := sendAll env (allocatedRates { w.controller with linear, yaw } 0) w
    ∃ odometry measured, wheelsOdometryTwist w' now = some odometry ∧
      wheelsMeasuredTwist w' now = some measured ∧
      ReadBack w.controller.cfg (rimHalfUnit w.controller.cfg) linear.velocity yaw.velocity
        odometry measured := by
  set g : Glide ℝ := { w.controller with linear, yaw }
  set cfg := w.controller.cfg
  intro w'
  have hrates := abs_sideRate_allocated (g := g) hcfg.accepted 0
  obtain ⟨hcontroller, hfresh, hnear⟩ := sendAll_near hcfg hrates honline hanswers
  have hcfg' : w'.controller.cfg = cfg := congrArg Glide.cfg hcontroller
  obtain ⟨hleft, hright⟩ := unsaturated_rates (g := g) hcfg.accepted hunsaturated
  set turn := yaw.velocity * cfg.icr * cfg.separation * 0.5 with hturn
  -- the four wheels, by side
  have hfrontLeft : |w'.measured 0 - (linear.velocity - turn)| ≤ rimHalfUnit cfg := hleft ▸ hnear 0
  have hfrontRight : |w'.measured 1 - (linear.velocity + turn)| ≤ rimHalfUnit cfg :=
    hright ▸ hnear 1
  have hbackLeft : |w'.measured 2 - (linear.velocity - turn)| ≤ rimHalfUnit cfg := hleft ▸ hnear 2
  have hbackRight : |w'.measured 3 - (linear.velocity + turn)| ≤ rimHalfUnit cfg :=
    hright ▸ hnear 3
  have hseparation : 0 < cfg.separation := hcfg.accepted.separation
  have hicr : 0 < cfg.icr := hcfg.accepted.icr
  obtain ⟨hodometryLinear, hodometryAngular⟩ :=
    sides_near hfrontLeft hfrontRight (mul_pos hseparation hicr)
  obtain ⟨hmeasuredLinear, hmeasuredAngular⟩ :=
    sides_near (mean_near hfrontLeft hbackLeft) (mean_near hfrontRight hbackRight) hseparation
  obtain ⟨hyaw, hyawMeasured⟩ := turn_div hcfg.accepted yaw.velocity
  rw [← hturn] at hyaw hyawMeasured
  rw [hyaw] at hodometryAngular
  rw [hyawMeasured] at hmeasuredAngular
  refine ⟨_, _, wheelsOdometryTwist_fresh (hfresh now hwindow),
    wheelsMeasuredTwist_fresh (hfresh now hwindow), ?_⟩
  rw [hcfg']
  exact ⟨hodometryLinear, hodometryAngular, hmeasuredLinear, hmeasuredAngular⟩

theorem ReadBack.mono {cfg : GlideConfig ℝ} (hcfg : cfg.Accepted) {q q' v ω : ℝ}
    {odometry measured : ℝ × ℝ} (h : ReadBack cfg q v ω odometry measured) (hq : q ≤ q') :
    ReadBack cfg q' v ω odometry measured := by
  have hseparation : 0 < cfg.separation := hcfg.separation
  have hicr : 0 < cfg.icr := hcfg.icr
  refine ⟨h.odometryLinear.trans hq, h.odometryAngular.trans ?_, h.measuredLinear.trans hq,
    h.measuredAngular.trans ?_⟩
  · gcongr
  · gcongr

end ReadBack

/-! ### Every reachable state -/

/-- **Allocation and encoder odometry are inverse.**  In every state that the start-up of
either image, with the configuration of `robot.h` or a saved one of 200 RPM at most, and
any operations after it can reach, reconfigurations among them:

* every valid speed is what the last reply of its wheel gives under the configuration in
  force;
* whatever the body velocity and the correction, the cap and the conversion to 16 bits
  alter no setpoint of the allocation;
* a body velocity whose allocation does not saturate, sent to four motors that report
  what they were sent, is read back within half a unit at the rim. -/
theorem odometry_inverts_allocation (env : Bus) (image : Image)
    {header : Option (CalibrationParameters ℝ)} (hheader : ∀ p ∈ header, p.rpmMax ≤ 200)
    (ops : List (WheelOp ℝ)) :
    let w := ops.foldl (wheelStep env) (wheelsBegin env image header)
    let cfg := w.controller.cfg
    (∀ i, w.measuredValid i → ∃ fb, w.lastReply i = some fb ∧ fb.valid ∧
      w.measured i = reportedSpeed cfg i fb) ∧
    ∀ linear yaw : MotionProfile ℝ,
      let g : Glide ℝ := { w.controller with linear, yaw }
      (∀ correction i,
        let rates := allocatedRates g correction
        let units := speedUnits cfg i (sideRate rates.1 rates.2 i)
        units = setpointUnits i (sideRate rates.1 rates.2 i) ∧
          (Int16.ofInt units).toInt = units) ∧
      ((glideAllocate g 0).2.2 = false → (∀ i, w.online i) →
        AnswersAsSent env (allocatedRates g 0) w → ∀ now, InWindow env w now →
        let w' := sendAll env (allocatedRates g 0) w
        ∃ odometry measured, wheelsOdometryTwist w' now = some odometry ∧
          wheelsMeasuredTwist w' now = some measured ∧
          ReadBack cfg (cfg.radius * (2 * Real.pi) / 1200) linear.velocity yaw.velocity
            odometry measured) := by
  intro w cfg
  have hsound : ReportsSound w := (reportsSound_begin env image hheader).run ops
  have hcfg : InForce cfg := hsound.config
  refine ⟨hsound.reported, ?_⟩
  intro linear yaw g
  refine ⟨?_, ?_⟩
  · intro correction i rates units
    have hrate : |sideRate rates.1 rates.2 i| ≤ cfg.wheelMax :=
      abs_sideRate_allocated (g := g) hcfg.accepted correction i
    have hunits : units = setpointUnits i (sideRate rates.1 rates.2 i) :=
      speedUnits_uncapped hcfg hrate i
    exact ⟨hunits, (speedUnits_int16 hcfg hrate i).trans hunits.symm⟩
  · intro hunsaturated honline hanswers now hwindow w'
    obtain ⟨odometry, measured, hodometry, hmeasured, hread⟩ :=
      sendAll_readBack hcfg hunsaturated honline hanswers hwindow
    exact ⟨odometry, measured, hodometry, hmeasured,
      hread.mono hcfg.accepted (rimHalfUnit_le hcfg.accepted.radius)⟩

/-! ### Straight ahead -/

/-- Four motors that report 500 units each way, at a clock that stands still. -/
def echoBus : Bus :=
  { restBus with
    reply := fun k => { received := true, feedback1 := if k % 2 = 0 then 500 else -500
                        errorCode := 0, temperature := 25 } }

/-- The node, started with the trial parameters saved. -/
noncomputable def echoWheels : Wheels ℝ := wheelsBegin echoBus .ros (some trialParameters)

theorem echoWheels_begin : echoWheels.controller = glideAtRest (glideConfigOf trialParameters) ∧
    echoWheels.frames = 0 ∧ ∀ i, echoWheels.online i = true := by
  have hbegin : beginController (some trialParameters) (Wheels.initial : Wheels ℝ) =
      ((beginController (some trialParameters) (Wheels.initial : Wheels ℝ)).1, true) := by
    rw [beginController, glideInit_robotConfig]
    simp only [startup_documented.glideInit_eq]
  have hcontroller :
      (beginController (some trialParameters) (Wheels.initial : Wheels ℝ)).1.controller =
        glideAtRest (glideConfigOf trialParameters) := by
    rw [beginController, glideInit_robotConfig]
    simp only [startup_documented.glideInit_eq]
  have hframes : (beginController (some trialParameters) (Wheels.initial : Wheels ℝ)).1.frames
      = 0 := by
    rw [beginController, glideInit_robotConfig]
    simp only [startup_documented.glideInit_eq]
    rfl
  rw [echoWheels, wheelsBegin, hbegin]
  refine ⟨?_, ?_, ?_⟩
  · simp [wheelIndices, beginWheel, getMode, echoBus, restBus, ddsm210ModeVelocity, hcontroller]
  · simp [wheelIndices, beginWheel, getMode, echoBus, restBus, ddsm210ModeVelocity, hframes]
  · intro i
    fin_cases i <;> simp [wheelIndices, beginWheel, getMode, echoBus, restBus, ddsm210ModeVelocity]

/-- 500 units straight ahead. -/
noncomputable def echoGlide : Glide ℝ :=
  { echoWheels.controller with
    linear := { velocity := 500 * wheelUnit * 0.0363, acceleration := 0 }, yaw := .zero }

theorem echoGlide_cfg : echoGlide.cfg = glideConfigOf trialParameters := by
  show echoWheels.controller.cfg = _
  rw [echoWheels_begin.1]
  rfl

theorem trialConfig_wheelMax :
    (glideConfigOf trialParameters : GlideConfig ℝ).wheelMax = 2000 * wheelUnit := by
  show (200 : ℝ) * twoPi / 60 / fabs wheelSpeedScale = 2000 * wheelUnit
  rw [fabs_wheelSpeedScale, wheelUnit]
  ring

theorem echoGlide_rates :
    glideAllocate echoGlide 0 = (500 * wheelUnit, 500 * wheelUnit, false) := by
  have hunit : 0 < wheelUnit := wheelUnit_pos
  have hradius : echoGlide.cfg.radius = 0.0363 := by
    rw [echoGlide_cfg]
    rfl
  have hcap : echoGlide.cfg.wheelMax = 2000 * wheelUnit := by
    rw [echoGlide_cfg, trialConfig_wheelMax]
  have hyaw : echoGlide.yaw.velocity = 0 := rfl
  have hlinear : echoGlide.linear.velocity = 500 * wheelUnit * 0.0363 := rfl
  rw [glideAllocate, hyaw, hlinear, hradius, hcap]
  have hrate : 500 * wheelUnit * 0.0363 / 0.0363 = 500 * wheelUnit := by norm_num
  have hturn : (0 + 0) * echoGlide.cfg.icr * echoGlide.cfg.separation * 0.5 = 0 := by ring
  dsimp only
  rw [hturn, sub_zero, add_zero, hrate, if_neg]
  rw [fmax_exact, fabs_exact, max_self, abs_of_pos (by positivity)]
  linarith

theorem echoBus_answers : AnswersAsSent echoBus (allocatedRates echoGlide 0) echoWheels := by
  have hreply : ∀ i : Fin 4, (echoBus.reply (0 + i)).feedback1 =
      Int16.ofInt (500 * (wheelTable i).direction) := by decide
  intro i
  have hcfg : InForce (glideConfigOf trialParameters) :=
    inForce_of_rpm startup_documented.glideInit_eq (by
      show (200 : ℝ) ≤ 200
      exact le_refl _)
  have hunit : 0 < wheelUnit := wheelUnit_pos
  have hrate : |500 * wheelUnit| ≤ (glideConfigOf trialParameters : GlideConfig ℝ).wheelMax := by
    rw [trialConfig_wheelMax, abs_of_pos (by positivity)]
    linarith
  have hside : sideRate (allocatedRates echoGlide 0).1 (allocatedRates echoGlide 0).2 i =
      500 * wheelUnit := by
    rw [allocatedRates, echoGlide_rates, sideRate]
    exact ite_self _
  have hunits : quantized wheelUnit (500 * wheelUnit * (wheelTable i).direction) =
      500 * (wheelTable i).direction := by
    have h : 500 * wheelUnit * (wheelTable i).direction =
        ((500 * (wheelTable i).direction : ℤ) : ℝ) * wheelUnit := by
      push_cast
      ring
    rw [h, quantized_mul _ hunit]
  refine ⟨rfl, ?_⟩
  rw [hside, echoWheels_begin.1, echoWheels_begin.2.1]
  show (echoBus.reply (0 + i)).feedback1 =
    Int16.ofInt (speedUnits (glideConfigOf trialParameters) i (500 * wheelUnit))
  rw [speedUnits_uncapped hcfg hrate, setpointUnits_eq, hunits]
  exact hreply i

theorem odometry_inverts_allocation_straight :
    ∃ odometry measured,
      wheelsOdometryTwist (sendAll echoBus (allocatedRates echoGlide 0) echoWheels) 0 =
        some odometry ∧
      wheelsMeasuredTwist (sendAll echoBus (allocatedRates echoGlide 0) echoWheels) 0 =
        some measured ∧
      ReadBack echoWheels.controller.cfg
        (echoWheels.controller.cfg.radius * (2 * Real.pi) / 1200) (500 * wheelUnit * 0.0363) 0
        odometry measured := by
  have hheader : ∀ p ∈ some (trialParameters : CalibrationParameters ℝ), p.rpmMax ≤ 200 := by
    intro p hp
    obtain rfl := Option.mem_some_iff.mp hp
    exact le_refl (200 : ℝ)
  have hrates : (glideAllocate echoGlide 0).2.2 = false := by rw [echoGlide_rates]
  have hwindow : InWindow echoBus echoWheels 0 := ⟨by decide, by decide⟩
  exact ((odometry_inverts_allocation echoBus .ros hheader []).2 _ _).2 hrates
    echoWheels_begin.2.2 echoBus_answers 0 hwindow
