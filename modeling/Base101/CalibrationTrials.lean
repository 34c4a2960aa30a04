/-
Trials in the calibration server (`SerialLink`, `tools/calibration/server.py`).

The fields that decide motion, and the functions that change them under the lock:
operator messages, the start and the end of trials and sequences, the two ticks and
the choice of the next command.  A section under the lock takes place at one reading
of `time.monotonic()`.  Of a result, what identifies it and how the trial ended is kept;
what is only displayed or analysed is left out.

The last four fields are a history, which the server does not keep: the last
accepted message that shows presence, whether a later automatic start has moved the
deadline, what was started and sent, and the sequences that have ended.
-/
import Base101.Protocol

namespace SerialLink

open Double

/-! ### Recipes -/

structure Stage (F : Type) where
  durationS : F
  vx : F
  wz : F

/-- A recipe of `trials.py`. -/
structure Recipe (F : Type) where
  id : String
  step : ℕ
  stages : List (Stage F)
  verification : Bool
  targetYaw : Option F

section Recipes

variable {F : Type} [Double F]

def Recipe.durationS (r : Recipe F) : F := r.stages.foldl (fun sum s => sum + s.durationS) 0

def recipe (id : String) (step : ℕ) (stages : List (F × F × F)) : Recipe F :=
  { id, step, stages := stages.map fun (durationS, vx, wz) => { durationS, vx, wz }
    verification := false, targetYaw := none }

def directionRecipes : List (Recipe F) :=
  [recipe "forward" 0 [(3.0, 0.08, 0.0)], recipe "backward" 0 [(3.0, -0.08, 0.0)],
   recipe "left" 0 [(3.0, 0.0, 0.3)], recipe "right" 0 [(3.0, 0.0, -0.3)],
   recipe "minimum" 0 [(3.0, 0.01, 0.0), (3.0, 0.02, 0.0), (3.0, 0.04, 0.0)],
   recipe "ramp" 0 [(5.0, 0.38, 0.0)],
   recipe "reverse" 0 [(4.0, 0.15, 0.0), (4.0, -0.15, 0.0)],
   recipe "yaw-reverse" 0 [(4.0, 0.0, 0.4), (4.0, 0.0, -0.4)]]

def spinRecipes : List (Recipe F) :=
  [("0.2", 0.2), ("0.4", 0.4), ("0.6", 0.6)].flatMap fun (text, speed) =>
    ["1", "2"].flatMap fun repeats =>
      [("CCW", 1.0), ("CW", -1.0)].map fun (direction, sign) =>
        recipe ("spin-" ++ text ++ "-" ++ direction ++ "-" ++ repeats) 1
          [(pi / speed + 2.0, 0.0, speed * sign)]

def brakeRecipes : List (Recipe F) :=
  [("0.1", 0.1), ("0.2", 0.2)].flatMap fun (text, speed) =>
    [("1", 1.0), ("-1", -1.0)].map fun (name, sign) =>
      recipe ("brake-" ++ text ++ "-" ++ name) 2 [(4.0, speed * sign, 0.0)]

def distanceRecipes : List (Recipe F) :=
  [("1", 1.0), ("-1", -1.0)].flatMap fun (name, sign) =>
    ["1", "2"].map fun repeats =>
      recipe ("distance-" ++ name ++ "-" ++ repeats) 3 [(3.0, 0.1 * sign, 0.0)]

def turnRecipes : List (Recipe F) :=
  ["1", "2", "3", "4", "5", "6", "7", "8", "9", "10"].map fun repeats =>
    { recipe ("verify-turn-" ++ repeats) 3 [(2.0 * pi / 0.4 + 2.0, 0.0, 0.4)] with
      verification := true, targetYaw := some (2.0 * pi) }

/-- `RECIPES`. -/
def recipes : List (Recipe F) :=
  directionRecipes ++ spinRecipes ++ brakeRecipes ++ distanceRecipes ++ turnRecipes

/-- `BY_ID`. -/
def byId (id : String) : Option (Recipe F) := recipes.find? (·.id = id)

variable (F) in
/-- The subtests of a step of the guide. -/
def subtests (step : ℤ) (verification : Bool) : List String :=
  (recipes (F := F)).filterMap fun r =>
    if r.step = step ∧ r.verification = verification then some r.id else none

end Recipes

/-! ### State -/

/-- What the server reads of a reply; an absent key reads as what `get` falls back on. -/
structure Telemetry (F : Type) where
  protocol : ℤ
  firmware : String
  session : Bool
  ready : Bool
  fault : Bool
  atRest : Bool
  motionEnabled : Bool
  brakeOkMask : ℤ
  mcuUs : ℤ
  parameters : CalibrationParameters F
  features : List String
  yawFeedback : Bool
  gyroFresh : Bool
  gyroRate : F
  /-- Of the metrics. -/
  gyroYaw : F
  wheelsFresh : List Bool

inductive Phase
  | preparing | drive | settling
deriving DecidableEq

/-- `self.trial`. -/
structure Trial (F : Type) where
  id : ℕ
  recipe : Recipe F
  /-- `sequence_id` and `sequence_index`. -/
  sequence : Option (ℕ × ℕ)
  phase : Phase
  durationS : F
  parameters : CalibrationParameters F
  started : F
  released : F
  lastMcu : ℤ

/-- The fields of an operator message that describe a trial or a sequence; `none` for
a value of another type. -/
structure Payload where
  recipe : Option String
  setupConfirmed : Bool
  surface : Option String
  load : Option String
  step : Option ℤ
  verification : Option Bool

/-- `self.sequence`. -/
structure Sequence (F : Type) where
  id : ℕ
  index : ℕ
  recipes : List String
  payload : Payload
  parameters : CalibrationParameters F
  resumeAt : F

/-- A finished trial, as it is stored. -/
structure TrialResult where
  id : ℕ
  recipe : String
  sequence : Option (ℕ × ℕ)
  complete : Bool
  reason : String

/-- `self.last_sequence`. -/
structure LastSequence where
  id : ℕ
  index : ℕ
  reason : String
  complete : Bool
  resultId : Option ℕ
  lastRecipe : Option String

/-- A line to the firmware. -/
inductive Command (F : Type)
  | hello
  | heartbeat
  | measure (body : Bool)
  | bound (ms : ℤ)
  | drive (vx wz : F)
  | release
  | stop
  | calibrate
  | parameters (line : String)

/-- The commands that the serial thread chooses by itself. -/
inductive Motion (F : Type)
  | drive (vx wz : F)
  | release
  | stop

/-- What it chooses under the lock. -/
inductive Control (F : Type)
  | prepareTrial
  | send (motion : Motion F)

/-- The commands that HTTP calls request. -/
inductive Request
  | stop
  | calibrate
  | parameters (line : String)
deriving DecidableEq

/-- A queued request. -/
structure Queued (F : Type) where
  request : Request
  expiry : F

/-- What the serial thread writes, and what for. -/
inductive Task (F : Type)
  | hello
  | heartbeat
  | measure (body : Bool)
  | bound (trial : Option ℕ) (ms : ℤ)
  /-- The command chosen under the lock, and the trial active at that moment. -/
  | control (motion : Motion F) (trial : Option (Trial F))
  | rejected
  | request (request : Request)
  | closing

/-- Where the serial thread stands in `_run`. -/
inductive Pc (F : Type)
  | send (task : Task F)
  | await (task : Task F)
  | handshaken
  | top
  | choose
  | readMode
  | readTrial (body : Bool)
  | markDriving (trial : Option ℕ)
  | cancel
  | serve
  | failed (error : String)
  | closing
  | ended

/-- The history of the link. -/
inductive LinkEvent (F : Type)
  | started (trial : ℕ)
  | wrote (command : Command F)

structure Server (F : Type) where
  pc : Pc F
  ready : Bool
  done : Bool
  error : Option String
  latest : Option (Telemetry F)
  received : Option F
  operatorClient : Option String
  operatorSequence : ℤ
  operatorSeen : F
  armed : Bool
  intent : Option (F × F)
  intentUntil : F
  releasePending : Bool
  forceStop : Bool
  trial : Option (Trial F)
  sequence : Option (Sequence F)
  lastSequence : Option LastSequence
  results : List TrialResult
  /-- What has been queued for the writer thread. -/
  persist : List TrialResult
  saving : Bool
  /-- HTTP handlers that are about to queue a request. -/
  handlers : List Request
  requests : List (Queued F)
  nextHeartbeat : F
  nextDrive : F
  /-- The next `uuid4` of a trial, and of a sequence. -/
  nextTrial : ℕ
  nextSequence : ℕ
  /-- The deadline the firmware holds. -/
  mcuBound : Option ℤ
  /-- The last accepted message that shows presence, and when it was received. -/
  message : Option (String × F)
  /-- When a subtest last started by itself, if since that message. -/
  renewed : Option F
  log : List (LinkEvent F)
  ended : List (Sequence F × LastSequence)

/-! ### Under the lock -/

variable {F : Type} [Double F]

def trialPresenceTimeoutS : F := 1.0
def telemetryTimeoutS : F := 1.0

/-- Equality of two dictionaries of parameters. -/
def sameParameters (p q : CalibrationParameters F) : Bool :=
  p.ax == q.ax && p.jx == q.jx && p.aw == q.aw && p.jw == q.jw && p.kIcr == q.kIcr &&
    p.radius == q.radius && p.separation == q.separation && p.ramp == q.ramp &&
    p.rpmMax == q.rpmMax && p.vxMax == q.vxMax && p.wzMax == q.wzMax && p.lpf == q.lpf &&
    p.kp == q.kp && p.ki == q.ki && p.correctionMax == q.correctionMax &&
    p.deadband == q.deadband && p.correctionAccel == q.correctionAccel &&
    p.correctionJerk == q.correctionJerk && p.yawFeedback == q.yawFeedback

/-- All four wheels report a fresh measurement. -/
def Telemetry.wheelsOk (t : Telemetry F) : Bool :=
  t.wheelsFresh.length = 4 && t.wheelsFresh.all id

/-- The speed of the faster wheels in a stage, in revolutions per minute. -/
def peakRpm (p : CalibrationParameters F) (stage : Stage F) : F :=
  (fabs stage.vx + fabs stage.wz * p.kIcr * p.separation / 2.0) / p.radius * 60.0 / (2.0 * pi)

/-- `str.isspace`, of one character. -/
def isPySpace (c : Char) : Bool :=
  (9 ≤ c.toNat && c.toNat ≤ 13) || (28 ≤ c.toNat && c.toNat ≤ 32) || c.toNat = 0x85 ||
    c.toNat = 0xa0 || c.toNat = 0x1680 || (0x2000 ≤ c.toNat && c.toNat ≤ 0x200a) ||
    c.toNat = 0x2028 || c.toNat = 0x2029 || c.toNat = 0x202f || c.toNat = 0x205f ||
    c.toNat = 0x3000

/-- `_validate_trial_locked`. -/
def validateTrial (s : Server F) (p : Payload) : Except String (Recipe F × Telemetry F) :=
  match p.recipe with
  | none => .error "invalid trial recipe"
  | some id =>
    match (byId id : Option (Recipe F)), s.latest with
    | none, _ => .error "unknown trial"
    | some _, none => .error "arm at rest before starting a trial"
    | some recipe, some current =>
      let params := current.parameters
      if !s.armed || s.trial.isSome || !current.atRest || current.motionEnabled then
        .error "arm at rest before starting a trial"
      else if !p.setupConfirmed then .error "confirm trial setup"
      else if !(["metrics", "bounded_trial", "full_config"].all (· ∈ current.features)) then
        .error "flash the new calibration firmware for automatic trials"
      else if !recipe.verification && (current.yawFeedback || params.yawFeedback != 0) then
        .error "disable yaw PI while identifying the baseline"
      else if !current.gyroFresh || !current.wheelsOk then
        .error "fresh sensor and wheel telemetry required"
      else if recipe.stages.any fun s => params.vxMax < fabs s.vx || params.wzMax < fabs s.wz then
        .error "trial exceeds configured body limits"
      else if recipe.stages.any fun s => params.rpmMax < peakRpm params s then
        .error "trial would saturate configured wheel limits"
      else
        match p.surface, p.load with
        | some surface, some load =>
          if 100 < max surface.length load.length then .error "invalid surface/payload notes"
          else if 0 < recipe.step && surface.toList.all isPySpace then
            .error "record the floor surface"
          else .ok (recipe, current)
        | _, _ => .error "invalid surface/payload notes"

/-- `_start_trial_locked`. -/
def startTrial (s : Server F) (now : F) (p : Payload) : Except String (Server F) := do
  let (recipe, current) ← validateTrial s p
  .ok { s with
    trial := some
      { id := s.nextTrial, recipe, sequence := s.sequence.map fun seq => (seq.id, seq.index)
        phase := .preparing, durationS := recipe.durationS, parameters := current.parameters
        started := now, released := 0, lastMcu := current.mcuUs }
    intentUntil := now + trialPresenceTimeoutS
    nextTrial := s.nextTrial + 1
    log := .started s.nextTrial :: s.log }

/-- `_end_sequence_locked`. -/
def endSequence (s : Server F) (reason : String) (complete : Bool) : Server F :=
  match s.sequence with
  | none => s
  | some seq =>
    let result := s.results.getLast?
    let last : LastSequence :=
      { id := seq.id, index := seq.index, reason, complete, resultId := result.map (·.id)
        lastRecipe := result.map (·.recipe) }
    { s with sequence := none, lastSequence := some last, ended := (seq, last) :: s.ended }

/-- How many results the server keeps. -/
@[irreducible] def resultsKept : ℕ := 500

/-- `results[-500:]`. -/
def lastResults (results : List TrialResult) : List TrialResult :=
  results.drop (results.length - resultsKept)

/-- What is stored of the trial. -/
def Trial.result (trial : Trial F) (reason : String) (complete : Bool) : TrialResult :=
  { id := trial.id, recipe := trial.recipe.id, sequence := trial.sequence, complete, reason }

/-- A result joins the last ones and is queued for storage. -/
def addResult (s : Server F) (result : TrialResult) : Server F :=
  { s with
    results := lastResults (s.results ++ [result])
    persist := s.persist ++ [result] }

/-- The sequence after one of its subtests: the next one is due in half a second. -/
def advanceSequence (s : Server F) (now : F) (reason : String) (complete : Bool) : Server F :=
  match s.sequence with
  | none => s
  | some seq =>
    let index := seq.index + 1
    if !complete || seq.recipes.length ≤ index then
      { endSequence { s with sequence := some { seq with index } } reason complete with
        armed := false }
    else { s with sequence := some { seq with index, resumeAt := now + 0.5 } }

/-- `_finish_trial_locked`. -/
def finishTrial (s : Server F) (now : F) (reason : String) (complete : Bool) : Server F :=
  match s.trial with
  | none => endSequence s reason complete
  | some trial =>
    let s := addResult s (trial.result reason complete)
    advanceSequence { s with trial := none, intent := none } now reason complete

/-- `cancel_operator`. -/
def cancelOperator (s : Server F) (now : F) : Server F :=
  let s := if s.trial.isSome then finishTrial s now "stopped by operator" false else s
  { endSequence s "stopped by operator" false with
    armed := false, intent := none, releasePending := false }

/-- Telemetry has not been received for a second. -/
def stale (s : Server F) (now : F) : Bool :=
  match s.received with
  | none => true
  | some received => telemetryTimeoutS < now - received

/-- `_presence_failure_locked`. -/
def presenceFailure (s : Server F) (now : F) : Option String :=
  if !s.armed then some "operator disarmed"
  else if s.intentUntil ≤ now then some "browser keepalive expired (1 s)"
  else if stale s now then some "MCU telemetry expired (1 s)"
  else none

/-! #### The ticks of the serial thread -/

/-- Why a sequence between two subtests is given up. -/
def sequenceFailure (s : Server F) (now : F) (seq : Sequence F) : Option String :=
  (presenceFailure s now).orElse fun _ =>
    match s.latest with
    | none => some "MCU readiness or fault changed"
    | some status =>
      if !status.ready || status.fault then some "MCU readiness or fault changed"
      else if !sameParameters status.parameters seq.parameters then some "parameters changed"
      else none

/-- The last reply confirms rest and all four brakes. -/
def restConfirmed (s : Server F) : Bool :=
  match s.latest with
  | none => false
  | some status => status.atRest && !status.motionEnabled && status.brakeOkMask == 15

/-- `_sequence_tick_locked`. -/
def sequenceTick (s : Server F) (now : F) : Option (Control F) × Server F :=
  match s.trial, s.sequence with
  | none, some seq =>
    match sequenceFailure s now seq with
    | some reason =>
      (some (.send .stop), { endSequence s reason false with armed := false, intent := none })
    | none =>
      if now < seq.resumeAt then (none, s)
      else if !restConfirmed s then
        if seq.resumeAt + 2.0 < now then
          (some (.send .stop), { endSequence s
            "brakes/rest not acknowledged between subtests" false with armed := false })
        else (none, s)
      else
        match startTrial s now { seq.payload with recipe := seq.recipes[seq.index]? } with
        -- the deadline moves without a message
        | .ok s => (none, { s with renewed := some now })
        | .error reason =>
          (some (.send .stop), { endSequence s reason false with armed := false })
  | _, _ => (none, s)

/-- The velocity of the stage at `elapsed`, the stages so far having lasted `end'`. -/
def stageVelocity (elapsed : F) : (end' : F) → List (Stage F) → Option (F × F)
  | _, [] => none
  | end', stage :: stages =>
    let end' := end' + stage.durationS
    if elapsed < end' then some (stage.vx, stage.wz) else stageVelocity elapsed end' stages

/-- The time a jerk-limited stop takes from the yaw rate. -/
def stopTime (p : CalibrationParameters F) (rate : F) : F :=
  if rate ≤ p.aw * p.aw / p.jw then 2.0 * sqrt (rate / p.jw) else rate / p.aw + p.aw / p.jw

/-- The turn ends here if the stop starts now. -/
def nearTarget (trial : Trial F) (status : Telemetry F) : Bool :=
  let rate := fabs status.gyroRate
  trial.recipe.targetYaw.any fun target =>
    target - rate * stopTime trial.parameters rate / 2.0 ≤ status.gyroYaw

/-- A trial is given up, and the robot stopped. -/
def abortTrial (s : Server F) (now : F) (reason : String) : Option (Control F) × Server F :=
  (some (.send .stop), { finishTrial s now reason false with armed := false })

/-- The end of `_trial_tick_locked`: the stage that is due, or the way to rest. -/
def motionTick (s : Server F) (now : F) (trial : Trial F) (status : Telemetry F) :
    Option (Control F) × Server F :=
  let elapsed := now - trial.started
  if trial.durationS ≤ elapsed ∨ nearTarget trial status ∨ trial.phase = .settling then
    let s := { s with intent := none }
    if trial.phase = .drive then
      (some (.send .release),
        { s with trial := some { trial with phase := .settling, released := now } })
    else if status.atRest && !status.motionEnabled then
      let s := finishTrial s now "completed" true
      (some (.send .stop), if s.sequence.isNone then { s with armed := false } else s)
    else if 3.0 < now - trial.released then
      abortTrial s now "rest not acknowledged within three seconds"
    else (none, s)
  else
    (none, { s with
      intent := (stageVelocity elapsed 0 trial.recipe.stages).orElse fun _ => s.intent })

/-- `_trial_tick_locked`. -/
def trialTick (s : Server F) (now : F) : Option (Control F) × Server F :=
  match s.trial with
  | none => (none, s)
  | some trial =>
    match presenceFailure s now, s.latest with
    | some reason, _ => abortTrial s now reason
    | none, none => abortTrial s now "readiness, parameters or MCU clock changed"
    | none, some status =>
      if !status.ready || status.fault || !sameParameters status.parameters trial.parameters ||
          status.mcuUs < trial.lastMcu then
        abortTrial s now "readiness, parameters or MCU clock changed"
      else if trial.phase = .preparing then (some .prepareTrial, s)
      else if status.mcuUs ≠ trial.lastMcu ∧ (!status.wheelsOk || !status.gyroFresh) then
        abortTrial s now "stale wheel or gyro data"
      else
        let trial := { trial with lastMcu := status.mcuUs }
        motionTick { s with trial := some trial } now trial status

/-- Both ticks: a trial's when the sequence asks for nothing. -/
def ticks (s : Server F) (now : F) : Option (Control F) × Server F :=
  let out := sequenceTick s now
  match out.1 with
  | some control => (some control, out.2)
  | none => trialTick out.2 now

/-- Manual control, and the trial's stage: a drive every 100 ms while the intent lasts. -/
def driveTick (s : Server F) (now : F) (control : Option (Control F)) :
    Option (Control F) × Server F :=
  match control, s.intent with
  | none, some (vx, wz) =>
    if s.armed then
      if s.intentUntil ≤ now then
        (some (.send .stop), { s with armed := false, intent := none })
      else if s.nextDrive ≤ now then
        (some (.send (.drive vx wz)), { s with nextDrive := now + 0.1 })
      else (none, s)
    else if s.releasePending then (some (.send .release), { s with releasePending := false })
    else (none, s)
  | none, none =>
    if s.releasePending then (some (.send .release), { s with releasePending := false })
    else (none, s)
  | some control, _ => (some control, s)

/-- A forced stop goes before what the ticks ask for. -/
def forcedStop (out : Option (Control F) × Server F) : Option (Control F) × Server F :=
  if out.2.forceStop then (some (.send .stop), { out.2 with forceStop := false }) else out

/-- Thirty seconds without a message disarm idle controls. -/
def idleDisarm (s : Server F) (now : F) : Server F :=
  if s.armed && s.intent.isNone && (30.0 : F) < now - s.operatorSeen then
    { s with armed := false }
  else s

/-- The section of `_run` that chooses the next command. -/
def chooseControl (s : Server F) (now : F) : Option (Control F) × Server F :=
  let out := forcedStop (ticks s now)
  driveTick (idleDisarm out.2 now) now out.1

/-! #### Operator messages -/

inductive Action
  | arm | drive | release | trial | sequence | presence
deriving DecidableEq

/-- An operator message; `none` for a value of another type. -/
structure Message (F : Type) where
  client : Option String
  seq : Option ℤ
  vx : Option F
  wz : Option F
  payload : Payload

/-- `[a-zA-Z0-9_-]{8,64}`. -/
def validClient (client : String) : Bool :=
  client.toList.all (fun c => c.isAlphanum || c = '_' || c = '-') &&
    8 ≤ client.length && client.length ≤ 64

/-- A finite number within the cap. -/
def validVelocity (v : Option F) (cap : F) : Bool :=
  v.any fun v => isfinite v && !(cap < fabs v)

/-- Readiness without a fault, reported within a second. -/
def freshFeedback (s : Server F) (now : F) : Bool :=
  match s.latest with
  | none => false
  | some current => current.ready && !current.fault && !stale s now

/-- An accepted message that shows presence. -/
def present (s : Server F) (now : F) (client : String) : Server F :=
  { s with message := some (client, now), renewed := none }

/-- The `sequence` action. -/
def startSequence (s : Server F) (now : F) (p : Payload) : Server F × Except String Unit :=
  match p.step, p.verification with
  | some step, some verification =>
    if step < 0 ∨ 3 < step ∨ (verification ∧ step ≠ 3) then (s, .error "invalid step sequence")
    else if s.sequence.isSome || s.trial.isSome then (s, .error "stop the active sequence first")
    else
      let ids := subtests F step verification
      if ids = [] then (s, .error "no subtests for this step")
      else
        match ids.mapM fun id => validateTrial s { p with recipe := some id }, s.latest with
        | .error e, _ => (s, .error e)
        | .ok _, none => (s, .error "arm at rest before starting a trial")
        | .ok _, some current =>
          let seq : Sequence F :=
            { id := s.nextSequence, index := 0, recipes := ids, payload := p
              parameters := current.parameters, resumeAt := 0 }
          let s := { s with sequence := some seq, nextSequence := s.nextSequence + 1 }
          match startTrial s now { p with recipe := ids.head? } with
          | .error e => (s, .error e)
          | .ok s => (s, .ok ())
  | _, _ => (s, .error "invalid step sequence")

/-- The actions, once the operator and the feedback have been checked. -/
def act (s : Server F) (now : F) (action : Action) (m : Message F) :
    Server F × Except String Unit :=
  match action with
  | .sequence => startSequence s now m.payload
  | .trial =>
    if s.sequence.isSome then (s, .error "stop the active sequence first")
    else
      match startTrial s now m.payload with
      | .error e => (s, .error e)
      | .ok s => (s, .ok ())
  | .presence =>
    if !s.armed || (s.trial.isNone && s.sequence.isNone) then (s, .error "no active trial")
    else ({ s with intentUntil := now + trialPresenceTimeoutS }, .ok ())
  | .arm =>
    match s.latest with
    | none => (s, .error "robot must be at rest before arming")
    | some current =>
      if !current.atRest || current.motionEnabled then
        (s, .error "robot must be at rest before arming")
      else ({ s with armed := true }, .ok ())
  | .drive =>
    match m.vx, m.wz with
    | some vx, some wz =>
      if !s.armed then (s, .error "arm controls before driving")
      else
        ({ s with intent := some (vx, wz), intentUntil := now + 0.2, releasePending := false },
          .ok ())
    | _, _ => (s, .error "vx must be finite and within +/-0.4")
  | .release => ({ s with intent := none, releasePending := true }, .ok ())

/-- The section of `operator` under the lock, once the message has been noted. -/
def performAction (s : Server F) (now : F) (action : Action) (client : String) (m : Message F) :
    Server F × Except String Unit :=
  if action ≠ .release ∧ !freshFeedback s now then
    (s, .error "fresh calibrated IMU and motor feedback required")
  else if (s.trial.isSome || s.sequence.isSome) ∧
      (action = .arm ∨ action = .drive ∨ action = .release) then
    ({ finishTrial s now "manual takeover" false with
        armed := false, intent := none, releasePending := false, forceStop := true },
      .error "trial cancelled; Stop, then enable manual controls")
  else
    let out := act s now action m
    match out.2 with
    | .error e => (out.1, .error e)
    | .ok _ =>
      if action = .trial ∨ action = .sequence ∨ action = .presence then
        (present out.1 now client, .ok ())
      else (out.1, .ok ())

/-- The owner and the number of a message are checked, and noted. -/
def accept (s : Server F) (now : F) (action : Action) (client : String) (seq : ℤ) :
    Server F × Except String Unit :=
  let other := s.operatorClient ≠ some client
  if s.saving then (s, .error "wait for settings save to finish")
  else if !s.ready then (s, .error (s.error.getD "serial unavailable"))
  else if other ∧ (action ≠ .arm ∨ s.armed) then
    (s, .error "another operator owns the controls")
  else
    let s := if other then { s with operatorClient := some client, operatorSequence := -1 } else s
    if seq ≤ s.operatorSequence then (s, .error "stale operator command")
    else ({ s with operatorSequence := seq, operatorSeen := now }, .ok ())

/-- The section of `operator` under the lock. -/
def operatorLocked (s : Server F) (now : F) (action : Action) (client : String) (seq : ℤ)
    (m : Message F) : Server F × Except String Unit :=
  let out := accept s now action client seq
  match out.2 with
  | .error e => (out.1, .error e)
  | .ok _ => performAction out.1 now action client m

/-- The client and the number of a message that is well formed. -/
def checkMessage (action : Action) (m : Message F) : Except String (String × ℤ) :=
  match m.client, m.seq with
  | none, _ => .error "invalid operator client"
  | some client, seq =>
    if !validClient client then .error "invalid operator client"
    else
      match seq with
      | none => .error "invalid operator sequence"
      | some seq =>
        if seq < 0 ∨ 2147483647 < seq then .error "invalid operator sequence"
        else if action = .drive ∧ !validVelocity m.vx 0.4 then
          .error "vx must be finite and within +/-0.4"
        else if action = .drive ∧ !validVelocity m.wz 0.8 then
          .error "wz must be finite and within +/-0.8"
        else .ok (client, seq)

/-- `operator`. -/
def operator (s : Server F) (now : F) (action : Action) (m : Message F) :
    Server F × Except String Unit :=
  match checkMessage action m with
  | .error e => (s, .error e)
  | .ok (client, seq) => operatorLocked s now action client seq m

end SerialLink
