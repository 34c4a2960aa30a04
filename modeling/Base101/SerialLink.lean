/-
The serial thread of the calibration server and the calls around it (`server.py`).

`_run` is cut where it releases the lock or waits for the port: a program counter, an
exchange being a write and a later reply.  In between, any number of HTTP calls run,
each section under the lock as one step.  Replies, failures of the port and the clock
come with the events.

* `step` — one step of the thread or of an HTTP call;
* `linkMachine` — runs of the server, from `boot`.
-/
import Base101.CalibrationTrials
import Base101.Machine

namespace SerialLink

open Double

variable {F : Type} [Double F]

/-! ### The port -/

/-- The commands that set or clear the firmware's deadline. -/
def Command.setsDeadline : Command F → Bool
  | .bound _ | .stop | .hello | .calibrate => true
  | _ => false

/-- The firmware drops its deadline when it stops for another reason. -/
def Command.clearsDeadline : Command F → Bool
  | .stop | .hello | .calibrate => true
  | _ => false

def Motion.command : Motion F → Command F
  | .drive vx wz => .drive vx wz
  | .release => .release
  | .stop => .stop

def Request.command : Request → Command F
  | .stop => .stop
  | .calibrate => .calibrate
  | .parameters line => .parameters line

/-- The command a task writes. -/
def Task.command : Task F → Command F
  | .hello => .hello
  | .heartbeat => .heartbeat
  | .measure body => .measure body
  | .bound _ ms => .bound ms
  | .control motion _ => motion.command
  | .rejected => .stop
  | .request asked => asked.command
  | .closing => .stop

/-- Stop and calibration overtake other requests. -/
def Queued.urgent (q : Queued F) : Bool :=
  match q.request with
  | .stop | .calibrate => true
  | _ => false

/-- The next request of the priority queue, and the rest. -/
def nextRequest (requests : List (Queued F)) : Option (Queued F × List (Queued F)) :=
  let i := (requests.findIdx? Queued.urgent).getD 0
  requests[i]?.map fun q => (q, requests.eraseIdx i)

/-- `BY_ID[trial['recipe']]['step'] > 0`, for the active trial. -/
def bodyMeasurement (trial : Option (Trial F)) : Bool := trial.any fun t => 0 < t.recipe.step

/-- `ceil((duration + 3) * 1000)`, the milliseconds of a trial's deadline. -/
def boundMs (trial : Trial F) : ℤ := toInt (ceil ((trial.durationS + 3.0) * 1000.0))

/-! ### The thread -/

/-- What the port gives a step of the thread. -/
inductive Input (F : Type)
  | go
  | reply (ok : Bool) (telemetry : Telemetry F)
  | fail (error : String)

/-- A reply has been read: an `ok` one is the latest telemetry. -/
def receive (s : Server F) (now : F) (ok : Bool) (telemetry : Telemetry F) : Server F :=
  if ok then { s with latest := some telemetry, received := some now } else s

/-- `_run` goes on after the reply to a task. -/
def resume (s : Server F) (now : F) (ok : Bool) (telemetry : Telemetry F) : Task F → Server F
  | .hello =>
    if ok && telemetry.protocol == 2 && telemetry.firmware == "base101-calibration" then
      { s with pc := .handshaken }
    else { s with pc := .failed "calibration firmware handshake failed" }
  | .heartbeat =>
    if ok && telemetry.session then { s with nextHeartbeat := now + 0.1, pc := .choose }
    else { s with pc := .failed "MCU heartbeat lease expired; restart server to reconnect" }
  | .measure body =>
    if ok then { s with pc := .readTrial body }
    else { s with pc := .failed "MCU rejected measurement start" }
  | .bound trial ms =>
    if ok then { s with mcuBound := some ms, pc := .markDriving trial }
    else { s with pc := .failed "MCU rejected trial deadline" }
  | .control _ _ => { s with pc := if ok then .serve else .cancel }
  | .rejected => { s with pc := .serve }
  | .request _ => { s with pc := .top }
  | .closing => { s with pc := .ended }

/-- The phase of the trial whose deadline was accepted. -/
def markDriving (s : Server F) (now : F) (id : Option ℕ) : Server F :=
  match s.trial with
  | none => s
  | some trial =>
    if some trial.id = id then
      { s with trial := some { trial with phase := .drive, started := now } }
    else s

/-- An exception in `_run`; one while closing is ignored. -/
def raise (s : Server F) (error : String) : Task F → Server F
  | .closing => { s with pc := .ended }
  | _ => { s with pc := .failed error }

/-- One step of the serial thread. -/
def threadStep (s : Server F) (now : F) (input : Input F) : Server F :=
  match s.pc, input with
  | .send task, .go =>
    { s with
      pc := .await task, log := .wrote task.command :: s.log
      mcuBound := if task.command.clearsDeadline then none else s.mcuBound }
  | .send task, .fail error => raise s error task
  | .await task, .reply ok telemetry =>
    resume (receive s now ok telemetry) now ok telemetry task
  | .await task, .fail error => raise s error task
  | .handshaken, .go => { s with ready := true, nextHeartbeat := now, nextDrive := 0, pc := .top }
  | .top, .go =>
    if s.done then { s with pc := .closing }
    else { s with pc := if s.nextHeartbeat ≤ now then .send .heartbeat else .choose }
  | .choose, .go =>
    let out := chooseControl s now
    { out.2 with
      pc := match out.1 with
        | none => .serve
        | some .prepareTrial => .readMode
        | some (.send motion) => .send (.control motion out.2.trial) }
  | .readMode, .go => { s with pc := .send (.measure (bodyMeasurement s.trial)) }
  | .readTrial _, .go =>
    { s with
      pc := match s.trial with
        | some trial => .send (.bound (some trial.id) (boundMs trial))
        -- without a trial the deadline is a second
        | none => .send (.bound none 1000) }
  | .markDriving id, .go => { markDriving s now id with pc := .serve }
  | .cancel, .go => { cancelOperator s now with pc := .send .rejected }
  | .serve, .go =>
    match nextRequest s.requests with
    | none => { s with pc := .top }
    | some (next, requests) =>
      { s with requests, pc := if next.expiry ≤ now then .top else .send (.request next.request) }
  | .failed error, .go =>
    { finishTrial s now "serial connection failed" false with error := some error, pc := .closing }
  | .closing, .go =>
    { s with ready := false, armed := false, intent := none, pc := .send .closing }
  | _, _ => s

/-! ### HTTP calls -/

/-- What `/api/stop` and `/api/calibrate` ask for. -/
def haltRequest (calibrate : Bool) : Request := if calibrate then .calibrate else .stop

/-- A section under the lock, or a step of the serial thread. -/
inductive Event (F : Type)
  | operator (now : F) (action : Action) (message : Message F)
  /-- `/api/stop` and `/api/calibrate` cancel; their request follows. -/
  | halt (now : F) (calibrate : Bool)
  /-- `/api/parameters` checks; its request follows. -/
  | parameters (line : String) (full : Bool)
  /-- A handler queues its request. -/
  | request (now : F) (handler : ℕ)
  | saveBegin (now : F)
  | saveEnd
  | close
  | thread (now : F) (input : Input F)

/-- `request`, up to the wait for the reply. -/
def queueRequest (s : Server F) (now : F) (handler : ℕ) : Server F :=
  match s.handlers[handler]? with
  | none => s
  | some asked =>
    let s := { s with handlers := s.handlers.eraseIdx handler }
    if !s.ready || 16 ≤ s.requests.length then s
    else { s with requests := s.requests ++ [{ request := asked, expiry := now + 1.0 }] }

/-- `save_settings` begins to write, parameters that pass `validate_parameters` taken. -/
def beginSave (s : Server F) (now : F) : Server F :=
  match s.latest with
  | none => s
  | some current =>
    if s.saving || s.armed || s.trial.isSome || s.sequence.isSome || !current.atRest ||
        current.motionEnabled || stale s now || current.brakeOkMask != 15 then s
    else { s with saving := true }

def step (s : Server F) : Event F → Server F
  | .operator now action message => (operator s now action message).1
  | .halt now calibrate =>
    let s := cancelOperator s now
    { s with handlers := s.handlers ++ [haltRequest calibrate] }
  | .parameters line full =>
    if s.trial.isSome || s.sequence.isSome || s.saving then s
    else if full ∧ ∀ current ∈ s.latest, "full_config" ∉ current.features then s
    else { s with handlers := s.handlers ++ [.parameters line] }
  | .request now handler => queueRequest s now handler
  | .saveBegin now => beginSave s now
  | .saveEnd => { s with saving := false }
  | .close => { s with done := true }
  | .thread now input => threadStep s now input

/-- An identifier that none of the list has. -/
def freshId (ids : List ℕ) : ℕ := ids.foldr (fun id next => max (id + 1) next) 0

/-- `__init__` with the stored results, and the port opened. -/
def boot (stored : List TrialResult) : Server F :=
  { pc := .send .hello, ready := false, done := false, error := none, latest := none
    received := none, operatorClient := none, operatorSequence := -1, operatorSeen := 0
    armed := false, intent := none, intentUntil := 0, releasePending := false
    forceStop := false, trial := none, sequence := none, lastSequence := none
    results := lastResults stored, persist := [], saving := false
    handlers := [], requests := [], nextHeartbeat := 0, nextDrive := 0
    nextTrial := freshId (stored.map (·.id))
    nextSequence := freshId (stored.filterMap fun result => result.sequence.map (·.1))
    mcuBound := none, message := none, renewed := none, log := [], ended := [] }

/-- The server and its events; the readings of its clock are part of them. -/
def linkMachine : Machine (Server F) (Event F) where
  step := step
  time := fun _ => none

end SerialLink
