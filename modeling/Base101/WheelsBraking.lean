/-
Braking is never partial.

Between operations the robot is in one of two conditions: motion disabled, the
profiles at rest and every online wheel last told to brake; or motion enabled and
no wheel marked as braked.  A single wheel that fails in the middle of an update
does not leave a third one.

* `brakeAll_halted` — whatever went before, braking all wheels halts the robot;
* `no_partial_braking` — the two conditions hold between any operations, and an
  update in which a check or a motor fails halts the robot.
-/
import Base101.WheelsStep

open Double Function

section Frames

variable {F : Type} [Double F] {env : Bus} {w : Wheels F} {i j : Fin 4}

/-! ### Frames and traces -/

theorem lastFrame_sent (trace : List WheelEvent) (i j : Fin 4) (frame : Frame) :
    lastFrame (.sent i frame :: trace) j = if i = j then some frame else lastFrame trace j := by
  unfold lastFrame
  rw [List.findSome?_cons]
  by_cases h : i = j
  · simp [h]
  · simp [h]

theorem brakeFeedback_lastFrame (w : Wheels F) (i j : Fin 4) :
    lastFrame (brakeFeedback env w i).trace j =
      if i = j then some .brake else lastFrame w.trace j :=
  lastFrame_sent w.trace i j .brake

omit [Double F] in
theorem sendBrake_lastFrame (w : Wheels F) (i j : Fin 4) :
    lastFrame (sendBrake w i).trace j = if i = j then some .brake else lastFrame w.trace j :=
  lastFrame_sent w.trace i j .brake

/-! ### One wheel -/

@[simp] theorem wheelsBrake_online (w : Wheels F) (i : Fin 4) :
    (wheelsBrake env w i).online = w.online := by
  rw [wheelsBrake]
  split <;> rfl

@[simp] theorem wheelsBrake_controller (w : Wheels F) (i : Fin 4) :
    (wheelsBrake env w i).controller = glideReset w.controller := by
  rw [wheelsBrake]
  split <;> rfl

theorem wheelsBrake_lastFrame (w : Wheels F) (i j : Fin 4) :
    lastFrame (wheelsBrake env w i).trace j =
      if w.online i ∧ i = j then some .brake else lastFrame w.trace j := by
  by_cases hi : w.online i = true
  · rw [wheelsBrake, if_neg (by simp [hi]), brakeFeedback_lastFrame]
    simp only [hi, true_and]
    rfl
  · rw [wheelsBrake, if_pos (by simp [hi]), if_neg fun h => hi h.1]
    rfl

theorem wheelsBrake_braked (w : Wheels F) (i j : Fin 4) :
    (wheelsBrake env w i).braked j = if w.online i ∧ i = j then true else w.braked j := by
  by_cases hi : w.online i = true
  · rw [wheelsBrake, if_neg (by simp [hi])]
    show update w.braked i true j = _
    by_cases hij : i = j
    · subst hij
      simp [hi]
    · rw [update_of_ne fun h => hij h.symm, if_neg fun h => hij h.2]
  · rw [wheelsBrake, if_pos (by simp [hi]), if_neg fun h => hi h.1]
    rfl

/-! ### All wheels -/

/-- The robot has stopped: no motion, no shaping, every online wheel braked. -/
structure Halted (w : Wheels F) : Prop where
  motion : w.motionEnabled = false
  controller : w.controller = glideAtRest w.controller.cfg
  frames : ∀ i, w.online i → lastFrame w.trace i = some .brake
  braked : ∀ i, w.online i → w.braked i

theorem mem_wheelIndices (i : Fin 4) : i ∈ wheelIndices := by
  revert i
  decide

/-- A loop of brakes reaches every wheel in it, and keeps what it does not reach. -/
theorem foldl_wheelsBrake (is : List (Fin 4)) (w : Wheels F) :
    (is.foldl (wheelsBrake env) w).online = w.online ∧
      ∀ i, w.online i → (i ∈ is ∨ lastFrame w.trace i = some .brake ∧ w.braked i) →
        lastFrame (is.foldl (wheelsBrake env) w).trace i = some .brake ∧
          (is.foldl (wheelsBrake env) w).braked i := by
  induction is generalizing w with
  | nil =>
    refine ⟨rfl, ?_⟩
    intro i _ h
    exact h.resolve_left List.not_mem_nil
  | cons j is ih =>
    obtain ⟨honline, hreached⟩ := ih (wheelsBrake env w j)
    rw [wheelsBrake_online] at honline hreached
    refine ⟨honline, ?_⟩
    intro i hi h
    apply hreached i hi
    by_cases hj : j = i
    · -- this wheel is braked now, whatever happened to it before
      right
      subst hj
      rw [wheelsBrake_lastFrame, wheelsBrake_braked]
      simp [hi]
    · rcases h with hmem | hbraked
      · rcases List.mem_cons.mp hmem with rfl | hmem
        · exact absurd rfl hj
        · exact .inl hmem
      · right
        rw [wheelsBrake_lastFrame, wheelsBrake_braked]
        simpa [hj] using hbraked

theorem brakeAll_eq (w : Wheels F) :
    brakeAll env w = wheelsBrake env
      (wheelsBrake env (wheelsBrake env (wheelsBrake env w 0) 1) 2) 3 := rfl

@[simp] theorem brakeAll_online (w : Wheels F) : (brakeAll env w).online = w.online :=
  (foldl_wheelsBrake wheelIndices w).1

theorem brakeAll_halted (w : Wheels F) : Halted (brakeAll env w) where
  motion := by rw [brakeAll_eq, wheelsBrake_motionEnabled]
  controller := by
    rw [brakeAll_eq, wheelsBrake_controller]
    rfl
  frames i hi := by
    rw [brakeAll_online] at hi
    exact ((foldl_wheelsBrake wheelIndices w).2 i hi (.inl (mem_wheelIndices i))).1
  braked i hi := by
    rw [brakeAll_online] at hi
    exact ((foldl_wheelsBrake wheelIndices w).2 i hi (.inl (mem_wheelIndices i))).2

end Frames

/-! ### The invariant -/

section Invariant

variable {F : Type} [Double F] {env : Bus}

/-- One of the two conditions between operations. -/
structure BrakeSound (w : Wheels F) : Prop where
  still : w.motionEnabled = false →
    w.controller = glideAtRest w.controller.cfg ∧
      ∀ i, w.online i → lastFrame w.trace i = some .brake
  moving : w.motionEnabled → ∀ i, w.braked i = false

/-- The condition without motion, which brake frames keep. -/
structure Parked (w : Wheels F) : Prop where
  motion : w.motionEnabled = false
  controller : w.controller = glideAtRest w.controller.cfg
  frames : ∀ i, w.online i → lastFrame w.trace i = some .brake

theorem Parked.brakeSound {w : Wheels F} (h : Parked w) : BrakeSound w where
  still _ := ⟨h.controller, h.frames⟩
  moving hm := by
    rw [h.motion] at hm
    cases hm

theorem BrakeSound.parked {w : Wheels F} (h : BrakeSound w) (hstill : w.motionEnabled = false) :
    Parked w :=
  ⟨hstill, (h.still hstill).1, (h.still hstill).2⟩

theorem Halted.brakeSound {w : Wheels F} (h : Halted w) : BrakeSound w :=
  Parked.brakeSound ⟨h.motion, h.controller, h.frames⟩

/-- Only five fields matter. -/
theorem BrakeSound.congr {w w' : Wheels F} (h : BrakeSound w)
    (hmotion : w'.motionEnabled = w.motionEnabled) (hcontroller : w'.controller = w.controller)
    (honline : w'.online = w.online) (htrace : w'.trace = w.trace)
    (hbraked : w'.braked = w.braked) : BrakeSound w' where
  still := by rw [hmotion, hcontroller, honline, htrace]; exact h.still
  moving := by rw [hmotion, hbraked]; exact h.moving

theorem BrakeSound.setVelocity {w : Wheels F} (h : BrakeSound w) (linear angular : F) :
    BrakeSound (wheelsSetVelocity env w linear angular).1 := by
  rcases wheelsSetVelocity_cases env w linear angular with hrefused | ⟨-, -, left, right, hstart⟩
  · rw [hrefused]
    exact h.congr rfl rfl rfl rfl rfl
  · rw [hstart]
    exact ⟨nofun, fun _ _ => rfl⟩

theorem BrakeSound.observeGyro {w : Wheels F} (h : BrakeSound w) (sample : ImuSample F)
    (nowUs : UInt64) (valid : Bool) : BrakeSound (wheelsObserveGyro w sample nowUs valid) :=
  h.congr rfl rfl rfl rfl rfl

theorem brakeSound_restart (w : Wheels F) :
    BrakeSound (wheelsRestartGyroCalibration env w) :=
  (brakeAll_halted _).brakeSound.congr rfl rfl rfl rfl rfl

theorem BrakeSound.configure {w : Wheels F} (h : BrakeSound w) (p : CalibrationParameters F) :
    BrakeSound (wheelsConfigureCalibration env w p).1 := by
  rw [wheelsConfigureCalibration]
  dsimp only
  split
  · exact h.congr rfl rfl rfl rfl rfl
  next hstatus =>
    have hmotion : w.motionEnabled = false := by
      simp only [Bool.or_eq_true, not_or] at hstatus
      exact Bool.not_eq_true _ ▸ hstatus.2
    split
    · exact h.congr rfl rfl rfl rfl rfl
    · split
      · exact h.congr rfl rfl rfl rfl rfl
      next controller hcontroller =>
        rw [glideInit_eq_some hcontroller]
        -- a new filter setting restarts the estimator, which brakes
        split
        · exact brakeSound_restart _
        · exact Parked.brakeSound ⟨hmotion, rfl, (h.still hmotion).2⟩

/-! ### Updates -/

theorem Parked.brakeFeedback {w : Wheels F} (h : Parked w) (i : Fin 4) :
    Parked (brakeFeedback env w i) := by
  refine ⟨h.motion, h.controller, ?_⟩
  intro j hj
  rw [brakeFeedback_lastFrame]
  split
  · rfl
  · exact h.frames j hj

theorem Parked.brakeOnline {w : Wheels F} (h : Parked w) (now : UInt64) :
    Parked (brakeOnline env w now) := by
  have hstart : Parked { w with nextUpdateUs := now + wheelControlUs } :=
    ⟨h.motion, h.controller, h.frames⟩
  refine List.foldlRecOn wheelIndices _ hstart ?_
  intro w hw i _
  split
  · exact hw
  · exact hw.brakeFeedback i

/-- A setpoint is sent to an online wheel, and succeeds with a valid reply. -/
theorem sendSpeed_online (env : Bus) {w : Wheels F} {i : Fin 4} (hi : w.online i) (rate : F) :
    (sendSpeed env w i rate).1.frames = w.frames + 1 ∧
      (sendSpeed env w i rate).2 = (env.reply w.frames).valid := by
  rw [sendSpeed, if_neg (by simp [hi])]
  exact ⟨rfl, by simp [saveFeedback, exchange]⟩

/-- With every wheel online and none braked, the loop brakes all when one of the
replies is not valid, wherever it comes. -/
theorem sendSpeeds_fails (env : Bus) (left right : F) (is : List (Fin 4)) (w : Wheels F)
    (honline : ∀ i ∈ is, w.online i) (hbraked : ∀ i, w.braked i = false)
    (hfail : ∃ k < is.length, (env.reply (w.frames + k)).valid = false) :
    ∃ w', sendSpeeds env left right is w = brakeAll env w' := by
  induction is generalizing w with
  | nil =>
    obtain ⟨k, hk, -⟩ := hfail
    exact absurd hk (Nat.not_lt_zero k)
  | cons i is ih =>
    have hi : w.online i = true := honline i List.mem_cons_self
    rw [sendSpeeds]
    dsimp only
    rw [if_pos (by simp [hi, hbraked i])]
    set rate := sideRate left right i
    set w' : Wheels F := { w with target := update w.target i rate }
    obtain ⟨hframes, hsent⟩ := sendSpeed_online env (w := w') hi rate
    obtain ⟨k, hk, hinvalid⟩ := hfail
    by_cases hfirst : (env.reply w.frames).valid = true
    · rw [if_neg (by rw [hsent]; simpa using hfirst)]
      have hsame := sendSpeed_sameMotion env w' i rate
      refine ih _ ?_ ?_ ?_
      · intro j hj
        rw [hsame.online]
        exact honline j (List.mem_cons_of_mem i hj)
      · intro j
        rw [hsame.braked]
        exact hbraked j
      · -- the reply that is not valid comes later
        cases k with
        | zero =>
          rw [Nat.add_zero, hfirst] at hinvalid
          cases hinvalid
        | succ k =>
          refine ⟨k, by simpa using hk, ?_⟩
          rw [hframes]
          show (env.reply (w.frames + 1 + k)).valid = false
          rw [Nat.add_assoc, Nat.add_comm 1 k]
          exact hinvalid
    · rw [if_pos (by rw [hsent]; simpa using hfirst)]
      exact ⟨_, rfl⟩

/-- A check fails, or one of the four motors does not answer its setpoint with a
valid reply. -/
def UpdateFails (env : Bus) (w : Wheels F) : Prop :=
  updateTargets w (env.clock w.ticks) (w.controlDt (env.clock w.ticks)) = none ∨
    ∃ k < 4, (env.reply (w.frames + k)).valid = false

/-- The checks need every wheel online. -/
theorem online_of_updateTargets {w : Wheels F} {now : UInt64} {dt : F}
    {out : Glide F × F × F} (h : updateTargets w now dt = some out) (i : Fin 4) : w.online i := by
  simp only [updateTargets, Option.bind_eq_bind, Option.bind_eq_some_iff] at h
  obtain ⟨-, -, twist, htwist, -⟩ := h
  rw [wheelsMeasuredTwist] at htwist
  split at htwist
  · cases htwist
  next hfresh =>
    have hall : wheelIndices.all (w.fresh now) = true := by simpa using hfresh
    have hi := List.all_eq_true.mp hall i (mem_wheelIndices i)
    simp only [Wheels.fresh, Bool.and_eq_true] at hi
    exact hi.1.1.1

/-- An update that fails halts the robot. -/
theorem wheelsUpdate_fails {w : Wheels F} (h : BrakeSound w) (hdue : UpdateDue env w)
    (hfails : UpdateFails env w) : Halted (wheelsUpdate env w) := by
  rw [wheelsUpdate_due hdue]
  rw [advanceMotion]
  dsimp only
  split
  · exact brakeAll_halted _
  next controller left right htargets =>
    change updateTargets w (env.clock w.ticks) (w.controlDt (env.clock w.ticks)) = _ at htargets
    have honline := online_of_updateTargets htargets
    rcases hfails with hnone | hreply
    · rw [hnone] at htargets
      cases htargets
    · obtain ⟨w', hw'⟩ := sendSpeeds_fails env left right wheelIndices
        { w with ticks := w.ticks + 1, lastUpdateUs := env.clock w.ticks
                 nextUpdateUs := env.clock w.ticks + wheelControlUs, controller }
        (fun i _ => honline i) (h.moving hdue.1) hreply
      rw [hw']
      exact brakeAll_halted _

theorem BrakeSound.update {w : Wheels F} (h : BrakeSound w) : BrakeSound (wheelsUpdate env w) := by
  by_cases hdue : UpdateDue env w
  · rw [wheelsUpdate_due hdue]
    rcases advanceMotion_cases (w := { w with ticks := w.ticks + 1 }) hdue.1 (env.clock w.ticks)
      with ⟨w', -, hw'⟩ | ⟨-, hmotion, hbraked⟩
    · rw [hw']
      exact (brakeAll_halted w').brakeSound
    · constructor
      · intro hstill
        rw [hmotion] at hstill
        cases hstill
      · intro _
        rw [hbraked]
        exact h.moving hdue.1
  · rcases wheelsUpdate_not_due hdue with hclock | ⟨hstill, hbrake⟩
    · rw [hclock]
      exact h.congr rfl rfl rfl rfl rfl
    · rw [hbrake]
      have hparked : Parked { w with ticks := w.ticks + 1 } :=
        ⟨hstill, (h.still hstill).1, (h.still hstill).2⟩
      exact (hparked.brakeOnline _).brakeSound

/-! ### Wheels that come online later -/

omit [Double F] in
theorem sendBrake_lastFrame_self (w : Wheels F) (i : Fin 4) :
    lastFrame (sendBrake w i).trace i = some .brake := by
  rw [sendBrake_lastFrame, if_pos rfl]

theorem Parked.probe {w : Wheels F} (h : Parked w) (i : Fin 4) : Parked (sendBrake w i) := by
  refine ⟨h.motion, h.controller, ?_⟩
  intro j hj
  rw [sendBrake_lastFrame]
  split
  · rfl
  · exact h.frames j hj

/-- A wheel may come online once it has been braked. -/
theorem Parked.setOnline {w : Wheels F} {i : Fin 4} (h : Parked w)
    (hi : lastFrame w.trace i = some .brake) (online : Bool) (braked : Fin 4 → Bool) :
    Parked { w with online := Function.update w.online i online, braked } := by
  refine ⟨h.motion, h.controller, ?_⟩
  intro j hj
  by_cases hij : j = i
  · rw [hij]
    exact hi
  · change update w.online i online j = true at hj
    rw [update_of_ne hij] at hj
    exact h.frames j hj

/-- The probes of the offline wheels leave each one offline, or braked. -/
theorem Parked.retryOffline {w : Wheels F} (h : Parked w) : Parked (wheelsRetryOffline env w) := by
  rw [wheelsRetryOffline, if_neg (by simp [h.motion])]
  refine List.foldlRecOn wheelIndices _ h ?_
  intro w hw i _
  dsimp only
  have hbraked := hw.probe i
  split
  · exact hw
  · split
    · -- no answer to the first query
      exact ⟨hbraked.motion, hbraked.controller, hbraked.frames⟩
    · have hanswered : Parked (getMode env (getMode env (sendBrake w i)).2).2 :=
        ⟨hbraked.motion, hbraked.controller, hbraked.frames⟩
      exact (hanswered.setOnline (sendBrake_lastFrame_self w i) _ _).brakeFeedback i

theorem BrakeSound.retryOffline {w : Wheels F} (h : BrakeSound w) :
    BrakeSound (wheelsRetryOffline env w) := by
  by_cases hmotion : w.motionEnabled = true
  · rw [wheelsRetryOffline, if_pos hmotion]
    exact h
  · exact ((h.parked (by simpa using hmotion)).retryOffline).brakeSound

end Invariant

/-! ### Runs -/

/-- What the two images do with the wheels. -/
inductive WheelOp (F : Type)
  | setVelocity (linear angular : F)
  | update
  | restartGyroCalibration
  | configureCalibration (p : CalibrationParameters F)
  | retryOffline
  | brakeAll
  | observeGyro (sample : ImuSample F) (nowUs : UInt64) (valid : Bool)

section Runs

variable {F : Type} [Double F]

/-- One operation. -/
def wheelStep (env : Bus) (w : Wheels F) : WheelOp F → Wheels F
  | .setVelocity linear angular => (wheelsSetVelocity env w linear angular).1
  | .update => wheelsUpdate env w
  | .restartGyroCalibration => wheelsRestartGyroCalibration env w
  | .configureCalibration p => (wheelsConfigureCalibration env w p).1
  | .retryOffline => wheelsRetryOffline env w
  | .brakeAll => brakeAll env w
  | .observeGyro sample nowUs valid => wheelsObserveGyro w sample nowUs valid

/-- The step lemma. -/
theorem BrakeSound.step {env : Bus} {w : Wheels F} (h : BrakeSound w) (op : WheelOp F) :
    BrakeSound (wheelStep env w op) := by
  cases op with
  | setVelocity linear angular => exact h.setVelocity linear angular
  | update => exact h.update
  | restartGyroCalibration => exact brakeSound_restart w
  | configureCalibration p => exact h.configure p
  | retryOffline => exact h.retryOffline
  | brakeAll => exact (brakeAll_halted w).brakeSound
  | observeGyro sample nowUs valid => exact h.observeGyro sample nowUs valid

/-- The run lemma. -/
theorem BrakeSound.run {env : Bus} {w : Wheels F} (h : BrakeSound w) (ops : List (WheelOp F)) :
    BrakeSound (ops.foldl (wheelStep env) w) := by
  induction ops generalizing w with
  | nil => exact h
  | cons op ops ih => exact ih (h.step op)

/-- In either image, with any saved configuration, and after any operations with
any replies: with motion disabled the last frame sent to every online wheel is a
brake, with motion enabled no wheel is marked as braked, and a due update in which
a check or a motor fails ends halted. -/
theorem no_partial_braking (env : Bus) (image : Image)
    (header : Option (CalibrationParameters F)) (ops : List (WheelOp F)) :
    let w := ops.foldl (wheelStep env) (wheelsBoot env image header)
    (w.motionEnabled = false → ∀ i, w.online i → lastFrame w.trace i = some .brake) ∧
      (w.motionEnabled → ∀ i, w.braked i = false) ∧
      (UpdateDue env w → UpdateFails env w → Halted (wheelsUpdate env w)) := by
  intro w
  have h : BrakeSound w := (brakeAll_halted _).brakeSound.run ops
  refine ⟨?_, h.moving, wheelsUpdate_fails h⟩
  intro hstill
  exact (h.still hstill).2

end Runs
