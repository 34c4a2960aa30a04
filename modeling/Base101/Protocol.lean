/-
The calibration protocol (`calibration_protocol.c`).

A line-oriented command interface with four deadlines: the trial bound, the
session lease (renewed by `hello` and `heartbeat`), the operator lease (renewed
by `drive`) and the release backstop.  `calibrationExpire` enforces them, at
most one per call; `calibrationCommand` expires and then processes one line.

A call returns the new state, whether the hardware must brake and the reply.
The reply is kept as data, one constructor per format string; the tokens of a
line are read by `request` before the state is looked at.
-/
import Base101.CString

/-- `calibration_parameters_t`. -/
@[ext] structure CalibrationParameters (F : Type) where
  ax : F
  jx : F
  aw : F
  jw : F
  kIcr : F
  radius : F
  separation : F
  ramp : F
  rpmMax : F
  vxMax : F
  wzMax : F
  lpf : F
  kp : F
  ki : F
  correctionMax : F
  deadband : F
  correctionAccel : F
  correctionJerk : F
  /-- 0 or 1, kept numeric for the positional wire format. -/
  yawFeedback : F
deriving DecidableEq

/-- `calibration_action_t`. -/
inductive CalibrationAction
  | none | drive | release | set | gyro | measure | bound
deriving DecidableEq

/-- `calibration_protocol_t`. -/
structure CalibrationProtocol (F : Type) where
  parameters : CalibrationParameters F
  session : Bool
  ready : Bool
  atRest : Bool
  fault : Bool
  driving : Bool
  releasing : Bool
  measureBody : Bool
  heartbeatUs : UInt64
  operatorUs : UInt64
  releaseUntilUs : UInt64
  boundUntilUs : UInt64
  vx : F
  wz : F
  stopReason : String
  action : CalibrationAction
deriving DecidableEq

def calibrationHeartbeatUs : UInt64 := 500000
def calibrationOperatorUs : UInt64 := 350000
def calibrationReleaseUs : UInt64 := 2000000

/-- What an `ok` reply reports. -/
structure Status (F : Type) where
  motionEnabled : Bool
  ready : Bool
  atRest : Bool
  fault : Bool
  session : Bool
  stopReason : String
  mcuUs : UInt64
  parameters : CalibrationParameters F
deriving DecidableEq

/-- The two formats of a reply. -/
inductive Reply (F : Type)
  | error (id : ℕ) (error : String)
  | ok (id : ℕ) (status : Status F)
deriving DecidableEq

/-- `strstr(reply, "\"ok\":true")`: no error text contains it. -/
def Reply.isOk {F : Type} : Reply F → Bool
  | .error _ _ => false
  | .ok _ _ => true

/-! ### Lines -/

/-- The command a line asks for: verb and number of arguments match. -/
inductive Request
  | stop
  | hello (version : String)
  | status
  | heartbeat
  | calibrate
  | drive (vx wz : String)
  | release
  | set (values : List String)
  | measure (mode : Option String)
  | bound (ms : String)
  | config (values : List String)
  | unknown
deriving DecidableEq

/-- The comparisons of `args[1]` and `n`. -/
def request : List String → Request
  | [_, verb] =>
    if verb = "stop" then .stop
    else if verb = "status" then .status
    else if verb = "heartbeat" then .heartbeat
    else if verb = "calibrate" then .calibrate
    else if verb = "release" then .release
    else if verb = "measure" then .measure none
    else .unknown
  | [_, verb, word] =>
    if verb = "hello" then .hello word
    else if verb = "measure" then .measure (some word)
    else if verb = "bound" then .bound word
    else .unknown
  | [_, verb, vx, wz] => if verb = "drive" then .drive vx wz else .unknown
  | _ :: verb :: values =>
    if verb = "set" ∧ values.length = 5 then .set values
    else if verb = "config" ∧ values.length = 19 then .config values
    else .unknown
  | _ => .unknown

/-- All the tokens of a line. -/
def tokens (line : List Char) : List String :=
  (CString.strtok [' ', '\t'] line).map String.ofList

/-- The `args` array: the first 24 tokens. -/
def arguments (line : List Char) : List String := (tokens line).take 24

/-- The number `args[0]` reads as. -/
def lineId (line : List Char) : ℕ :=
  match arguments line with
  | word :: _ => CString.strtoul word.toList
  | [] => 0

/-- `valid_id`: decimal digits only, within an `int32_t`. -/
def validId (line : List Char) : Bool :=
  match arguments line with
  | word :: _ => word.toList.all Char.isDigit && lineId line ≤ 2147483647
  | [] => false

/-- A line with a valid id, a verb and no token left over. -/
def wellFormed (line : List Char) : Bool :=
  validId line && 2 ≤ (arguments line).length && (tokens line).length ≤ 24

variable {F : Type} [Double F]

open Double

/-- `value`: a finite number in the range, and nothing after it. -/
def value (word : String) (low high : F) : Option F :=
  match CString.strtod word.toList with
  | some (.number v, []) => if !isfinite v || v < low || high < v then none else some v
  | _ => none

/-- The five values of `set`. -/
def setParameters (p : CalibrationParameters F) : List String → Option (CalibrationParameters F)
  | [w2, w3, w4, w5, w6] => do
    let ax ← value w2 0.01 5
    let jx ← value w3 0.01 50
    let aw ← value w4 0.01 20
    let jw ← value w5 0.01 200
    let kIcr ← value w6 1 5
    some { p with ax, jx, aw, jw, kIcr }
  | _ => none

/-- The nineteen values of `config`. -/
def configValues : List String → Option (CalibrationParameters F)
  | [w2, w3, w4, w5, w6, w7, w8, w9, w10, w11, w12, w13, w14, w15, w16, w17, w18, w19, w20] => do
    let ax ← value w2 0.01 5
    let jx ← value w3 0.01 50
    let aw ← value w4 0.01 20
    let jw ← value w5 0.01 200
    let kIcr ← value w6 1 5
    let radius ← value w7 0.02 0.1
    let separation ← value w8 0.15 0.5
    let ramp ← value w9 1 255
    let rpmMax ← value w10 20 200
    let vxMax ← value w11 0.05 0.4
    let wzMax ← value w12 0.1 0.8
    let lpf ← value w13 1 80
    let kp ← value w14 0 2
    let ki ← value w15 0 2
    let correctionMax ← value w16 0 1
    let deadband ← value w17 0 0.05
    let correctionAccel ← value w18 0.01 2
    let correctionJerk ← value w19 0.01 20
    let yawFeedback ← value w20 0 1
    some { ax, jx, aw, jw, kIcr, radius, separation, ramp, rpmMax, vxMax, wzMax, lpf, kp, ki,
           correctionMax, deadband, correctionAccel, correctionJerk, yawFeedback }
  | _ => none

/-- `config` also wants three of its values integral. -/
def configParameters (values : List String) : Option (CalibrationParameters F) := do
  let p ← configValues values
  if floor p.ramp != p.ramp || floor p.rpmMax != p.rpmMax ||
      floor p.yawFeedback != p.yawFeedback then none
  else some p

/-! ### The state machine -/

def calibrationInit (defaults : CalibrationParameters F) : CalibrationProtocol F :=
  let defaults := if defaults.radius == 0 then
      { defaults with
        radius := 0.0363, separation := 0.2899, ramp := 1
        rpmMax := 200, vxMax := 0.4, wzMax := 0.8
        lpf := 20, kp := 0.5, ki := 0.3
        correctionMax := 0.5, deadband := 0.005
        correctionAccel := 0.25, correctionJerk := 1 }
    else defaults
  { parameters := defaults, session := false, ready := false, atRest := false, fault := false
    driving := false, releasing := false, measureBody := true
    heartbeatUs := 0, operatorUs := 0, releaseUntilUs := 0, boundUntilUs := 0
    vx := 0, wz := 0, stopReason := "boot", action := .none }

def calibrationStop (s : CalibrationProtocol F) (reason : String) : CalibrationProtocol F :=
  -- a stop for any reason drops the trial bound as well
  { s with driving := false, releasing := false, boundUntilUs := 0
           vx := 0, wz := 0, stopReason := reason }

def calibrationFault (s : CalibrationProtocol F) (reason : String) : CalibrationProtocol F :=
  { calibrationStop s reason with fault := true, ready := false }

def calibrationDisconnect (s : CalibrationProtocol F) : CalibrationProtocol F :=
  calibrationStop { s with session := false } "disconnect"

/-- At most one expired deadline per call; `true` when one was. -/
def calibrationExpire (s : CalibrationProtocol F) (now : UInt64) :
    CalibrationProtocol F × Bool :=
  if s.boundUntilUs ≠ 0 ∧ s.boundUntilUs ≤ now then
    (calibrationStop s "trial_deadline", true)
  else if s.session ∧ calibrationHeartbeatUs ≤ now - s.heartbeatUs then
    (calibrationStop { s with session := false } "heartbeat_timeout", true)
  else if s.driving ∧ calibrationOperatorUs ≤ now - s.operatorUs then
    (calibrationStop s "operator_timeout", true)
  else if s.releasing ∧ s.releaseUntilUs ≤ now then
    (calibrationStop s "release_timeout", true)
  else (s, false)

/-- The commands that need a session: state, brake flag and error. -/
def calibrationSession (s : CalibrationProtocol F) (brake : Bool) (now : UInt64) :
    Request → CalibrationProtocol F × Bool × Option String
  | .heartbeat => ({ s with heartbeatUs := now }, brake, none)
  | .calibrate =>
    ({ calibrationStop s "calibrating" with fault := false, ready := false, action := .gyro },
      true, none)
  | .drive vx wz =>
    match value vx (-0.4) 0.4, value wz (-0.8) 0.8 with
    | some vx, some wz =>
      if !s.ready || s.fault then (calibrationStop s "not_ready", true, some "not_ready")
      else ({ s with vx := vx, wz := wz, operatorUs := now, driving := true, releasing := false
                     action := .drive, stopReason := "driving" }, brake, none)
    | _, _ => (calibrationStop s "invalid_velocity", true, some "invalid_velocity")
  | .release =>
    -- a release already in progress is taken as a new one
    if s.driving || s.releasing then
      ({ s with driving := false, releasing := true, vx := 0, wz := 0
                releaseUntilUs := now + calibrationReleaseUs
                stopReason := "ramping_to_zero", action := .release }, brake, none)
    else (calibrationStop s "released", true, none)
  | .set values =>
    match setParameters s.parameters values with
    | none => (s, brake, some "invalid_parameters")
    | some p =>
      if !s.atRest || s.driving || s.releasing then (s, brake, some "not_at_rest")
      else ({ s with parameters := p, action := .set }, brake, none)
  | .measure mode =>
    if !s.atRest || s.driving || s.releasing then (s, brake, some "not_at_rest")
    else if mode ≠ none ∧ mode ≠ some "0" ∧ mode ≠ some "1" then
      (s, brake, some "invalid_measurement_mode")
    else ({ s with measureBody := mode = none ∨ mode = some "1", action := .measure }, brake, none)
  | .bound ms =>
    match (value ms 100 30000 : Option F) with
    | none => (s, brake, some "invalid_trial_duration")
    | some ms =>
      if !s.atRest || s.driving || s.releasing then (s, brake, some "not_at_rest")
      -- the conversion of the microseconds truncates
      else ({ s with boundUntilUs := now + UInt64.ofNat (toInt (ms * 1000)).toNat
                     action := .bound }, brake, none)
  | .config values =>
    match configParameters values with
    | none => (s, brake, some "invalid_parameters")
    | some p =>
      if !s.atRest || s.driving || s.releasing then (s, brake, some "not_at_rest")
      else ({ s with parameters := p, action := .set }, brake, none)
  | _ => (s, brake, some "unknown_command_or_arguments")

/-- The chain of command branches. -/
def calibrationDispatch (s : CalibrationProtocol F) (brake : Bool) (now : UInt64) (r : Request) :
    CalibrationProtocol F × Bool × Option String :=
  match r with
  | .stop => (calibrationStop s "requested", true, none)
  | .hello version =>
    -- in a session too: whatever moves is stopped
    if version ≠ "2" then (s, brake, some "unsupported_protocol")
    else (calibrationStop { s with session := true, heartbeatUs := now } "handshake", true, none)
  | .status => (s, brake, none) -- reading status renews no lease
  | r => if !s.session then (s, brake, some "handshake_required")
    else calibrationSession s brake now r

/-- The values an `ok` reply prints. -/
def calibrationStatus (s : CalibrationProtocol F) (now : UInt64) : Status F :=
  { motionEnabled := s.driving || s.releasing, ready := s.ready, atRest := s.atRest
    fault := s.fault, session := s.session, stopReason := s.stopReason, mcuUs := now
    parameters := s.parameters }

/-- The two formats of the reply. -/
def calibrationReply (s : CalibrationProtocol F) (line : List Char) (now : UInt64) :
    Option String → Reply F
  | some error => .error (if validId line then lineId line else 0) error
  | none => .ok (lineId line) (calibrationStatus s now)

def calibrationCommand (s : CalibrationProtocol F) (line : List Char) (now : UInt64) :
    CalibrationProtocol F × Bool × Reply F :=
  let expired := calibrationExpire s now
  -- the line is processed whether or not a deadline has stopped the motion
  let s := { expired.1 with action := .none }
  let r := if !wellFormed line then (s, expired.2, some "invalid_request")
    else calibrationDispatch s expired.2 now (request (arguments line))
  (r.1, r.2.1, calibrationReply r.1 line now r.2.2)
