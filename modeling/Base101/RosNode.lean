/-
The whole ROS node (`ros.c`, `main.c`).

Over the wheels, the IMU and the command watchdog of `Ros`: odometry, clock synchronisation,
the publications with their due times, and the restart when the host is gone.  Frame names,
covariances and status lines are constant texts and numbers, and are left out; so are the
clock readings of `imu_update` and of the LEDs.

The history holds what was published and when a response of the host was accepted.

* `nodeLoop` — an iteration of the main loop; a restarted board does nothing more;
* `Posts` — publishing changes nothing but the history and the failure count;
* `NodeInvariant` — what every handler of an iteration keeps.
-/
import Base101.Ros
import Base101.TimeSyncNetwork
import Base101.Firmware

/-- The messages of the node's four subscriptions. -/
inductive NodeMessage (F : Type)
  | wheels (message : RosMessage F)
  | odomReset (reset : Bool)
  | timeSync (response : Int64MultiArray)

/-- `imu_health_t`. -/
structure NodeHealth where
  sensorOnline : Bool
  magOnline : Bool
  primaryAck : Bool
  primaryId : UInt8
  alternateAck : Bool
  alternateId : UInt8
  readSuccesses : UInt32
  readFailures : UInt32
  temperatureFailures : UInt32
  initAttempts : UInt32

/-- The tapes of the node. -/
structure NodeBus (F : Type) extends Bus where
  /-- The results of `imu_read`. -/
  imu : ℕ → Bool × ImuSample F
  /-- The messages dispatched in each iteration. -/
  inbox : ℕ → List (NodeMessage F)
  /-- The results of `imu_read_magnetic_field`. -/
  magneticField : ℕ → Option (Fin 3 → F)
  /-- The answers of `imu_get_health`. -/
  health : ℕ → NodeHealth
  /-- The results of `easyp_publish`. -/
  accepts : ℕ → Bool

/-- What is published. -/
inductive Publication (F : Type)
  | timeSyncRequest (request : UInt64)
  | odometry (stamp : RosTime) (x y orientationZ orientationW linearX angularZ : F)
  | imu (stamp : RosTime) (sample : ImuSample F)
  | temperature (stamp : RosTime) (temperature : F)
  | magneticField (stamp : RosTime) (field : Fin 3 → F)
  | imuStatus (health : NodeHealth) (synced : Bool) (imuPublishFailures : UInt32)
    (yaw : YawStatus F) (yawFeedback : Bool)

/-- A publication, with the reading that found it due, the board's time of what it reports and
the last reading before it. -/
structure Published (F : Type) where
  dueUs : UInt64
  sampleUs : UInt64
  checkedUs : UInt64
  message : Publication F

/-- The statics of `ros.c`. -/
structure RosNode (F : Type) where
  ros : Ros F
  board : SyncBoard
  odom : Odometry F
  imuPublishFailures : UInt32
  imuDue : UInt64
  imuStatusDue : UInt64
  odomDue : UInt64
  /-- The watchdog has been set off. -/
  rebooted : Bool
  /-- Magnetic fields and health reports read so far. -/
  fields : ℕ
  reports : ℕ
  /-- What was published, the latest first. -/
  outbox : List (Published F)
  /-- The readings at which responses of the host were accepted, the latest first. -/
  acceptedUs : List UInt64

/-- `TIME_SYNC_MAX_RTT_US`. -/
def timeSyncMaxRttUs : UInt32 := 20000
/-- `TIME_SYNC_TIMEOUT_MS` in microseconds. -/
def timeSyncTimeoutUs : UInt64 := 10000000
/-- `ROS_HOST_RESTART_TIMEOUT_MS` in microseconds. -/
def rosHostRestartUs : UInt64 := 60000000
/-- `1000000u / IMU_STATUS_HZ`. -/
def imuStatusUs : UInt64 := 1000000
/-- `1000000u / IMU_HZ`. -/
def imuUs : UInt64 := 20000
/-- `GLIDE_YAW_FEEDBACK_ENABLED`. -/
def glideYawFeedbackEnabled : Bool := false

/-- The part of the tapes that `Ros` reads. -/
def NodeBus.toRosBus {F : Type} (env : NodeBus F) : RosBus F :=
  { toBus := env.toBus, imu := env.imu, inbox := fun _ => [] }

section Model

variable {F : Type} [Double F] (env : NodeBus F)

open Double

/-- `time_us_64`. -/
def readNode (n : RosNode F) : UInt64 × RosNode F :=
  let (now, wheels) := readClock env.toBus n.ros.wheels
  (now, { n with ros := { n.ros with wheels } })

/-- `easyp_publish`, and whether it succeeds. -/
def easypPublish (n : RosNode F) (p : Published F) : Bool × RosNode F :=
  (env.accepts n.outbox.length, { n with outbox := p :: n.outbox })

/-! ### Messages -/

def onOdomReset (n : RosNode F) (reset : Bool) : RosNode F :=
  if reset then { n with odom := odometryResetPose n.odom } else n

/-- The reading is taken for a message with the wrong layout as well. -/
def nodeTimeSyncResponse (n : RosNode F) (response : Int64MultiArray) : RosNode F :=
  let (now, n) := readNode env n
  let (board, accepted) := onTimeSync n.board response now
  { n with board, acceptedUs := if accepted then now :: n.acceptedUs else n.acceptedUs }

def nodeDispatch (n : RosNode F) : NodeMessage F → RosNode F
  | .wheels message => { n with ros := dispatch env.toRosBus n.ros message }
  | .odomReset reset => onOdomReset n reset
  | .timeSync response => nodeTimeSyncResponse env n response

/-- `easyp_spin_once`. -/
def nodeSpinOnce (n : RosNode F) : RosNode F :=
  (env.inbox n.ros.loops).foldl (nodeDispatch env) n

/-! ### Before the publications -/

def nodeWatchdog (n : RosNode F) : RosNode F :=
  { n with ros := cmdVelWatchdog env.toRosBus n.ros }

def nodeTimeSyncUpdate (n : RosNode F) : RosNode F :=
  let (now, n) := readNode env n
  let (board, request) := timeSyncUpdate n.board now
  let n := { n with board }
  match request with
  | none => n
  | some request =>
    (easypPublish env n
      { dueUs := now, sampleUs := now, checkedUs := now, message := .timeSyncRequest request }).2

def nodeSampleImu (n : RosNode F) : RosNode F := { n with ros := sampleImu env.toRosBus n.ros }

def updateOdometry (n : RosNode F) : RosNode F :=
  let (now, n) := readNode env n
  let twist := wheelsOdometryTwist n.ros.wheels now
  { n with
    odom := odometryUpdate n.odom now (twist.getD (0, 0)).1 (twist.getD (0, 0)).2 twist.isSome
      odomMaxDtUs }

/-! ### Publications -/

/-- The message about the odometry of `sampleUs`. -/
def odometryMessage (o : Odometry F) (stamp : RosTime) : Publication F :=
  .odometry stamp o.x o.y (sin (o.yaw * 0.5)) (cos (o.yaw * 0.5)) o.vx o.wz

def publishOdometry (n : RosNode F) (due : UInt64) : RosNode F :=
  let (now, n) := readNode env n
  if !n.odom.valid || now < n.odom.sampleUs || odomMaxDtUs < now - n.odom.sampleUs ||
      (wheelsOdometryTwist n.ros.wheels now).isNone then n
  else
    match (stampAt Arith64.wrapping n.board.clock n.odom.sampleUs).run with
    | none => n
    | some stamp =>
      (easypPublish env n { dueUs := due, sampleUs := n.odom.sampleUs, checkedUs := now
                            message := odometryMessage n.odom stamp }).2

/-- The IMU's message; a failure to publish it is counted. -/
def publishSample (n : RosNode F) (due now : UInt64) (stamp : RosTime) : RosNode F :=
  let (accepted, n) := easypPublish env n
    { dueUs := due, sampleUs := n.ros.latestImuUs, checkedUs := now
      message := .imu stamp n.ros.latestImu }
  if accepted then n else { n with imuPublishFailures := n.imuPublishFailures + 1 }

/-- The IMU and its temperature, if the sample is calibrated and fresh. -/
def publishLatestImu (n : RosNode F) (due : UInt64) : RosNode F :=
  if n.ros.latestImuValid && (wheelsYawRate n.ros.wheels n.ros.latestImuUs).isSome then
    let (now, n) := readNode env n
    if now - n.ros.latestImuUs ≤ odomMaxDtUs then
      match (stampAt Arith64.wrapping n.board.clock n.ros.latestImuUs).run with
      | none => n
      | some stamp =>
        let n := publishSample env n due now stamp
        (easypPublish env n
          { dueUs := due, sampleUs := n.ros.latestImuUs, checkedUs := now
            message := .temperature stamp n.ros.latestImu.tempC }).2
    else n
  else n

def publishMagneticField (n : RosNode F) (due : UInt64) : RosNode F :=
  let field := env.magneticField n.fields
  let n := { n with fields := n.fields + 1 }
  match field with
  | none => n
  | some field =>
    let (now, n) := readNode env n
    match (stampAt Arith64.wrapping n.board.clock now).run with
    | none => n
    | some stamp =>
      (easypPublish env n { dueUs := due, sampleUs := now, checkedUs := now
                            message := .magneticField stamp field }).2

/-- Nothing is published while there is no ROS time. -/
def publishImu (n : RosNode F) (due : UInt64) : RosNode F :=
  let (now, n) := readNode env n
  match (stampAt Arith64.wrapping n.board.clock now).run with
  | none => n
  | some _ => publishMagneticField env (publishLatestImu env n due) due

/-- The health report, without a stamp. -/
def publishImuStatus (n : RosNode F) (due : UInt64) : RosNode F :=
  let health := env.health n.reports
  let n := { n with reports := n.reports + 1 }
  let (now, n) := readNode env n
  let synced := (timeSyncTime Arith64.wrapping n.board.clock now).run.isSome
  let (now, n) := readNode env n
  (easypPublish env n
    { dueUs := due, sampleUs := now, checkedUs := now
      message := .imuStatus health synced n.imuPublishFailures
        (wheelsGetYawStatus n.ros.wheels now) glideYawFeedbackEnabled }).2

/-! ### The loop -/

/-- The host answered once, and has not for 60 s. -/
def HostLost (n : RosNode F) (now : UInt64) : Prop :=
  n.board.hostSeen ∧ rosHostRestartUs ≤ now - n.board.lastHostResponseUs

instance (n : RosNode F) (now : UInt64) : Decidable (HostLost n now) :=
  inferInstanceAs (Decidable (_ ∧ _))

/-- The wheels are braked, and the board restarts. -/
def restartForConnectionLoss (n : RosNode F) : RosNode F :=
  { n with ros := { n.ros with wheels := brakeAll env.toBus n.ros.wheels }, rebooted := true }

def statusWhenDue (n : RosNode F) (now : UInt64) : RosNode F :=
  if n.imuStatusDue ≤ now then
    publishImuStatus env { n with imuStatusDue := now + imuStatusUs } now
  else n

def odometryWhenDue (n : RosNode F) (now : UInt64) : RosNode F :=
  if n.odomDue ≤ now then publishOdometry env { n with odomDue := now + odomUs } now else n

def imuWhenDue (n : RosNode F) (now : UInt64) : RosNode F :=
  if n.imuDue ≤ now then publishImu env { n with imuDue := now + imuUs } now else n

/-- The publications of an iteration, due at `now`. -/
def publishDue (n : RosNode F) (now : UInt64) : RosNode F :=
  imuWhenDue env (odometryWhenDue env (statusWhenDue env n now) now) now

/-- `ros_update` up to the reading that decides about the restart. -/
def beforeRestart (n : RosNode F) : UInt64 × RosNode F :=
  readNode env (updateOdometry env (nodeSampleImu env (nodeTimeSyncUpdate env
    (nodeWatchdog env (nodeSpinOnce env n)))))

def rosUpdate (n : RosNode F) : RosNode F :=
  let (now, n) := beforeRestart env n
  if HostLost n now then restartForConnectionLoss env n else publishDue env n now

/-- `loop`. -/
def nodeLoop (n : RosNode F) : RosNode F :=
  if n.rebooted then n
  else
    let n := rosUpdate env n
    if n.rebooted then n
    else { n with ros := { n.ros with wheels := wheelsUpdate env.toBus n.ros.wheels
                                      loops := n.ros.loops + 1 } }

/-- `setup`, once the router has answered. -/
def nodeSetup (header : Option (CalibrationParameters F)) : RosNode F :=
  { ros := rosSetup env.toRosBus header
    board := { clock := (timeSyncInit Arith64.wrapping timeSyncMaxRttUs timeSyncTimeoutUs).run
               hostSeen := false, lastHostResponseUs := 0, nextRequestUs := 0 }
    odom := .zero
    imuPublishFailures := 0, imuDue := 0, imuStatusDue := 0, odomDue := 0
    rebooted := false, fields := 0, reports := 0, outbox := [], acceptedUs := [] }

/-- The state after `n` iterations. -/
def nodeRun (header : Option (CalibrationParameters F)) (k : ℕ) : RosNode F :=
  (nodeLoop env)^[k] (nodeSetup env header)

theorem nodeRun_succ (header : Option (CalibrationParameters F)) (k : ℕ) :
    nodeRun env header (k + 1) = nodeLoop env (nodeRun env header k) :=
  Function.iterate_succ_apply' _ _ _

end Model

/-! ### What publishing changes -/

/-- The stamp of a message that has one. -/
def Publication.stamp {F : Type} : Publication F → Option RosTime
  | .timeSyncRequest _ => none
  | .odometry stamp _ _ _ _ _ _ => some stamp
  | .imu stamp _ => some stamp
  | .temperature stamp _ => some stamp
  | .magneticField stamp _ => some stamp
  | .imuStatus _ _ _ _ _ => none

/-- The publishers. -/
inductive Topic
  | timeSyncRequest | odom | imu | imuTemp | imuMag | imuStatus
deriving DecidableEq

def Publication.topic {F : Type} : Publication F → Topic
  | .timeSyncRequest _ => .timeSyncRequest
  | .odometry _ _ _ _ _ _ _ => .odom
  | .imu _ _ => .imu
  | .temperature _ _ => .imuTemp
  | .magneticField _ _ => .imuMag
  | .imuStatus _ _ _ _ _ => .imuStatus

/-- Readings are taken and `new` is published. -/
structure Posts {F : Type} (n n' : RosNode F) (new : List (Published F)) : Prop where
  ros : n'.ros = { n.ros with wheels := { n.ros.wheels with ticks := n'.ros.wheels.ticks } }
  ticks : n.ros.wheels.ticks ≤ n'.ros.wheels.ticks
  board : n'.board = n.board
  odom : n'.odom = n.odom
  imuDue : n'.imuDue = n.imuDue
  imuStatusDue : n'.imuStatusDue = n.imuStatusDue
  odomDue : n'.odomDue = n.odomDue
  rebooted : n'.rebooted = n.rebooted
  accepted : n'.acceptedUs = n.acceptedUs
  outbox : n'.outbox = new ++ n.outbox

section Posts

variable {F : Type} {n n' n'' : RosNode F} {new new' : List (Published F)}

theorem Posts.refl (n : RosNode F) : Posts n n [] :=
  ⟨rfl, Nat.le_refl _, rfl, rfl, rfl, rfl, rfl, rfl, rfl, rfl⟩

theorem Posts.trans (h : Posts n n' new) (h' : Posts n' n'' new') : Posts n n'' (new' ++ new) where
  ros := by rw [h'.ros, h.ros]
  ticks := h.ticks.trans h'.ticks
  board := h'.board.trans h.board
  odom := h'.odom.trans h.odom
  imuDue := h'.imuDue.trans h.imuDue
  imuStatusDue := h'.imuStatusDue.trans h.imuStatusDue
  odomDue := h'.odomDue.trans h.odomDue
  rebooted := h'.rebooted.trans h.rebooted
  accepted := h'.accepted.trans h.accepted
  outbox := by rw [h'.outbox, h.outbox, List.append_assoc]

theorem Posts.latestImuUs (h : Posts n n' new) : n'.ros.latestImuUs = n.ros.latestImuUs := by
  rw [h.ros]

theorem readNode_posts (env : NodeBus F) (n : RosNode F) : Posts n (readNode env n).2 [] :=
  ⟨rfl, Nat.le_succ _, rfl, rfl, rfl, rfl, rfl, rfl, rfl, rfl⟩

theorem easypPublish_posts (env : NodeBus F) (n : RosNode F) (p : Published F) :
    Posts n (easypPublish env n p).2 [p] :=
  ⟨rfl, Nat.le_refl _, rfl, rfl, rfl, rfl, rfl, rfl, rfl, rfl⟩

/-- What the node reads of its counters does not matter to the history. -/
theorem Posts.counted (h : Posts n n' new) (failures : UInt32) (fields reports : ℕ) :
    Posts n { n' with imuPublishFailures := failures, fields, reports } new :=
  ⟨h.ros, h.ticks, h.board, h.odom, h.imuDue, h.imuStatusDue, h.odomDue, h.rebooted,
    h.accepted, h.outbox⟩

end Posts

/-! ### What the rest of an iteration changes -/

/-- Time goes on; the clock, the due times and the history stay. -/
structure SameHistory {F : Type} (n n' : RosNode F) : Prop where
  ticks : n.ros.wheels.ticks ≤ n'.ros.wheels.ticks
  board : n'.board = n.board
  imuDue : n'.imuDue = n.imuDue
  imuStatusDue : n'.imuStatusDue = n.imuStatusDue
  odomDue : n'.odomDue = n.odomDue
  outbox : n'.outbox = n.outbox
  accepted : n'.acceptedUs = n.acceptedUs

section Steps

variable {F : Type} [Double F] (env : NodeBus F)

omit [Double F] in
/-- A change of the wheels' side alone. -/
theorem SameHistory.of_ros {n : RosNode F} {r : Ros F}
    (hticks : n.ros.wheels.ticks ≤ r.wheels.ticks) : SameHistory n { n with ros := r } :=
  ⟨hticks, rfl, rfl, rfl, rfl, rfl, rfl⟩

omit [Double F] in
theorem readNode_sameHistory (n : RosNode F) : SameHistory n (readNode env n).2 :=
  .of_ros (Nat.le_succ _)

theorem dispatch_ticks (r : Ros F) (message : RosMessage F) :
    r.wheels.ticks ≤ (dispatch env.toRosBus r message).wheels.ticks ∧
      (dispatch env.toRosBus r message).latestImuUs = r.latestImuUs := by
  cases message with
  | gyroCalibrate restart =>
    rw [dispatch, onGyroCalibrate]
    split_ifs
    · exact ⟨restart_ticks r.wheels, rfl⟩
    · exact ⟨Nat.le_refl _, rfl⟩
  | cmdVel linearX angularZ =>
    rw [dispatch, onCmdVel]
    dsimp only
    split
    · exact ⟨Nat.le_succ _, rfl⟩
    · set w : Wheels F := (readClock env.toRosBus.toBus r.wheels).2 with hw
      have hread : r.wheels.ticks + 1 = w.ticks := rfl
      rcases wheelsSetVelocity_cases env.toRosBus.toBus w linearX angularZ with
        hrefused | ⟨-, -, left, right, hstart⟩
      · rw [hrefused]
        have hbraked := (brakeAll_extends env.toRosBus.toBus
          { w with ticks := w.ticks + 1 }).ticks
        refine ⟨?_, rfl⟩
        show r.wheels.ticks ≤ (brakeAll env.toRosBus.toBus { w with ticks := w.ticks + 1 }).ticks
        dsimp only at hbraked
        omega
      · rw [hstart]
        refine ⟨?_, rfl⟩
        show r.wheels.ticks ≤ w.ticks + 1 + 1
        omega

theorem onOdomReset_sameHistory (n : RosNode F) (reset : Bool) :
    SameHistory n (onOdomReset n reset) := by
  rw [onOdomReset]
  split_ifs
  · exact ⟨Nat.le_refl _, rfl, rfl, rfl, rfl, rfl, rfl⟩
  · exact .of_ros (Nat.le_refl _)

theorem nodeWatchdog_sameHistory (n : RosNode F) : SameHistory n (nodeWatchdog env n) := by
  refine .of_ros ?_
  rcases cmdVelWatchdog_cases env.toRosBus n.ros with ⟨-, hr⟩ | ⟨-, -, hr⟩ | ⟨-, -, hr⟩
  · rw [hr]
    exact Nat.le_succ _
  · rw [hr]
    have hbraked := (brakeAll_extends env.toRosBus.toBus
      { n.ros.wheels with ticks := n.ros.wheels.ticks + 1 }).ticks
    exact Nat.le_of_succ_le hbraked
  · rw [hr]
    exact Nat.le_succ _

theorem nodeSampleImu_sameHistory (n : RosNode F) : SameHistory n (nodeSampleImu env n) :=
  .of_ros (sampleImu_wheels env.toRosBus n.ros).2.2

theorem updateOdometry_sameHistory (n : RosNode F) : SameHistory n (updateOdometry env n) :=
  ⟨Nat.le_succ _, rfl, rfl, rfl, rfl, rfl, rfl⟩

theorem restart_sameHistory (n : RosNode F) :
    SameHistory n (restartForConnectionLoss env n) :=
  ⟨(brakeAll_extends env.toBus n.ros.wheels).ticks, rfl, rfl, rfl, rfl, rfl, rfl⟩

theorem wheelsUpdate_sameHistory (n : RosNode F) :
    SameHistory n { n with ros := { n.ros with wheels := wheelsUpdate env.toBus n.ros.wheels
                                               loops := n.ros.loops + 1 } } :=
  .of_ros (wheelsUpdate_ticks_parameters env.toBus n.ros.wheels).1

/-! ### Invariants -/

omit [Double F] in
/-- The last sample was read before. -/
def ImuPast (n : RosNode F) : Prop :=
  ∀ k, n.ros.wheels.ticks ≤ k → n.ros.latestImuUs ≤ env.clock k

variable {env} {I : RosNode F → Prop} {G : RosNode F → Int64MultiArray → Prop}

omit [Double F] in
theorem ImuPast.mono {n n' : RosNode F} (h : ImuPast env n)
    (hticks : n.ros.wheels.ticks ≤ n'.ros.wheels.ticks)
    (hlatest : n'.ros.latestImuUs = n.ros.latestImuUs) : ImuPast env n' := by
  intro k hk
  rw [hlatest]
  exact h k (hticks.trans hk)

omit [Double F] in
/-- A message meets `G` if it is a response of the host. -/
def MessageMeets (G : RosNode F → Int64MultiArray → Prop) (n : RosNode F) : NodeMessage F → Prop
  | .timeSync response => G n response
  | _ => True

/-- The messages of an iteration meet `G` where they arrive. -/
def MessagesMeet (env : NodeBus F) (G : RosNode F → Int64MultiArray → Prop) :
    RosNode F → List (NodeMessage F) → Prop
  | _, [] => True
  | n, message :: messages =>
    MessageMeets G n message ∧ MessagesMeet env G (nodeDispatch env n message) messages

omit [Double F] in
instance decidableMessageMeets [∀ n response, Decidable (G n response)] (n : RosNode F) :
    (message : NodeMessage F) → Decidable (MessageMeets G n message)
  | .timeSync response => inferInstanceAs (Decidable (G n response))
  | .wheels _ => .isTrue trivial
  | .odomReset _ => .isTrue trivial

instance decidableMessagesMeet (env : NodeBus F) [∀ n response, Decidable (G n response)] :
    (n : RosNode F) → (messages : List (NodeMessage F)) → Decidable (MessagesMeet env G n messages)
  | _, [] => .isTrue trivial
  | n, message :: messages =>
    have := decidableMessagesMeet env (nodeDispatch env n message) messages
    inferInstanceAs (Decidable (_ ∧ _))

/-- What an iteration starts from and keeps. -/
structure NodeInvariant (env : NodeBus F) (I : RosNode F → Prop)
    (G : RosNode F → Int64MultiArray → Prop) : Prop where
  quiet : ∀ n n', SameHistory n n' → I n → I n'
  response : ∀ n response, G n response → I n → I (nodeTimeSyncResponse env n response)
  request : ∀ n, I n → I (nodeTimeSyncUpdate env n)
  publish : ∀ n k, ImuPast env n → k < n.ros.wheels.ticks → ¬HostLost n (env.clock k) →
    I n → I (publishDue env n (env.clock k))

omit [Double F] in
variable (env) in
theorem nodeTimeSyncResponse_wheels (n : RosNode F) (response : Int64MultiArray) :
    n.ros.wheels.ticks ≤ (nodeTimeSyncResponse env n response).ros.wheels.ticks ∧
      (nodeTimeSyncResponse env n response).ros.latestImuUs = n.ros.latestImuUs :=
  ⟨Nat.le_succ _, rfl⟩

omit [Double F] in
variable (env) in
theorem nodeTimeSyncUpdate_wheels (n : RosNode F) :
    n.ros.wheels.ticks ≤ (nodeTimeSyncUpdate env n).ros.wheels.ticks ∧
      (nodeTimeSyncUpdate env n).ros.latestImuUs = n.ros.latestImuUs := by
  rw [nodeTimeSyncUpdate]
  dsimp only
  split <;> exact ⟨Nat.le_succ _, rfl⟩

theorem nodeDispatch_imuPast {n : RosNode F} (h : ImuPast env n) (message : NodeMessage F) :
    ImuPast env (nodeDispatch env n message) := by
  cases message with
  | wheels message =>
    obtain ⟨hticks, hlatest⟩ := dispatch_ticks env n.ros message
    exact h.mono hticks hlatest
  | odomReset reset =>
    rw [nodeDispatch, onOdomReset]
    split_ifs <;> exact h
  | timeSync response =>
    obtain ⟨hticks, hlatest⟩ := nodeTimeSyncResponse_wheels env n response
    exact h.mono hticks hlatest

theorem NodeInvariant.dispatch (hI : NodeInvariant env I G) {n : RosNode F} (h : I n)
    (message : NodeMessage F) (hG : MessageMeets G n message) :
    I (nodeDispatch env n message) := by
  cases message with
  | wheels message => exact hI.quiet n _ (.of_ros (dispatch_ticks env n.ros message).1) h
  | odomReset reset => exact hI.quiet n _ (onOdomReset_sameHistory n reset) h
  | timeSync response => exact hI.response n response hG h

theorem NodeInvariant.spinOnce (hI : NodeInvariant env I G) {n : RosNode F} (h : I n)
    (himu : ImuPast env n) (hG : MessagesMeet env G n (env.inbox n.ros.loops)) :
    I (nodeSpinOnce env n) ∧ ImuPast env (nodeSpinOnce env n) := by
  rw [nodeSpinOnce]
  generalize env.inbox n.ros.loops = messages at hG ⊢
  induction messages generalizing n with
  | nil => exact ⟨h, himu⟩
  | cons message messages ih =>
    exact ih (hI.dispatch h message hG.1) (nodeDispatch_imuPast himu message) hG.2

theorem nodeSampleImu_imuPast {n : RosNode F} (h : ImuPast env n) :
    ImuPast env (nodeSampleImu env n) := by
  intro k hk
  show (sampleImu env.toRosBus n.ros).latestImuUs ≤ env.clock k
  change (sampleImu env.toRosBus n.ros).wheels.ticks ≤ k at hk
  rw [sampleImu] at hk ⊢
  dsimp only at hk ⊢
  split at hk
  · next hwait =>
    rw [if_pos hwait]
    exact h k (Nat.le_of_succ_le hk)
  · next hwait =>
    rw [if_neg hwait]
    exact env.clock_mono _ _ (Nat.le_of_succ_le hk)

theorem updateOdometry_imuPast {n : RosNode F} (h : ImuPast env n) :
    ImuPast env (updateOdometry env n) := by
  have hticks : n.ros.wheels.ticks ≤ (updateOdometry env n).ros.wheels.ticks := Nat.le_succ _
  exact h.mono hticks rfl

/-- Up to the reading for the decision about the restart. -/
theorem NodeInvariant.before (hI : NodeInvariant env I G) {n : RosNode F} (h : I n)
    (himu : ImuPast env n) (hG : MessagesMeet env G n (env.inbox n.ros.loops)) :
    ∃ m, I m ∧ ImuPast env m ∧ beforeRestart env n = readNode env m := by
  obtain ⟨hspin, hspinImu⟩ := hI.spinOnce h himu hG
  have hwatched := nodeWatchdog_sameHistory env (nodeSpinOnce env n)
  have hrequest := hI.request _ (hI.quiet _ _ hwatched hspin)
  have hsample := hI.quiet _ _ (nodeSampleImu_sameHistory env _) hrequest
  have hodom := hI.quiet _ _ (updateOdometry_sameHistory env _) hsample
  -- the sample's time only changes where it is read
  have hwatchedImu : ImuPast env (nodeWatchdog env (nodeSpinOnce env n)) := by
    refine hspinImu.mono hwatched.ticks ?_
    rw [nodeWatchdog, cmdVelWatchdog]
    dsimp only
    split_ifs <;> rfl
  have hrequestWheels := nodeTimeSyncUpdate_wheels env (nodeWatchdog env (nodeSpinOnce env n))
  have hsampleImu :=
    nodeSampleImu_imuPast (hwatchedImu.mono hrequestWheels.1 hrequestWheels.2)
  exact ⟨_, hodom, updateOdometry_imuPast hsampleImu, rfl⟩

end Steps
