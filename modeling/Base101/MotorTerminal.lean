/-
The bounded motor terminal (`motor_terminal.c`).

The statics of the image are one record, passed along explicitly; the clock, the
replies of the motors and the answers to mode queries are read off the tapes of a
`Bus`.  The output, latest first, holds the frames sent to the motors and the lines
printed to the host.

`MotorTerminal.command` is cut at the words it recognises: each part is `none` where
the source goes on to the next test.  `mainLoop` lists the events of the iterations of
the main loop, which `terminalMachine` takes one by one.  The report printed every
200 ms is left out.
-/
import Base101.Machine
import Base101.MotionProfile
import Base101.Wheels

/-- `mode`. -/
inductive TerminalMode
  | hw | linear | shape
deriving DecidableEq

/-- The lines of `status_printf`; the texts that print no value are kept as they are. -/
inductive TerminalLine (F : Type)
  | text (s : String)
  | help
  | settings
  /-- `OK run`. -/
  | ran (left right duration : F)
  /-- `FAULT profile timing/state`. -/
  | profileFault (dt : F)
  | speedFault
  /-- `FAULT wheel, no reply`. -/
  | replyFault (index : Fin 4)
  /-- `FAULT wheel, error`. -/
  | motorFault (index : Fin 4) (errorCode : UInt8)
  /-- `wheel`, at start-up. -/
  | wheel (index : Fin 4) (online : Bool)
deriving DecidableEq

/-- What leaves the board. -/
inductive TerminalOutput (F : Type)
  | sent (index : Fin 4) (frame : Frame)
  | line (text : TerminalLine F)
deriving DecidableEq

/-- The statics of `motor_terminal.c` and the locals of its main loop. -/
structure MotorTerminal (F : Type) where
  online : Fin 4 → Bool
  /-- Physical RPM. -/
  target : Fin 4 → F
  commanded : Fin 4 → F
  /-- rad/s²; zero disables the software ramp. -/
  softwareAccel : F
  /-- 0.1 ms/RPM. -/
  hardwareAccel : UInt8
  /-- `-1` for all, or one wheel index. -/
  selected : ℤ
  untilUs : UInt64
  nextTickUs : UInt64
  lastTickUs : UInt64
  moving : Bool
  faulted : Bool
  mode : TerminalMode
  linearProfile : MotionProfile F
  yawProfile : MotionProfile F
  ax : F
  jx : F
  aw : F
  jw : F
  /-- The characters of the line so far, last first. -/
  buffer : List Char
  overflow : Bool
  connected : Bool
  /-- Clock readings, frames with feedback and mode queries so far. -/
  ticks : ℕ
  frames : ℕ
  queries : ℕ
  output : List (TerminalOutput F)

section Model

variable {F : Type} [Double F]

open Double Function CString

def wheelRadiusM : F := 0.0363
def wheelSeparationM : F := 0.2899

namespace MotorTerminal

/-- The initial value of the statics. -/
def initial : MotorTerminal F :=
  { online := fun _ => false, target := fun _ => 0, commanded := fun _ => 0
    softwareAccel := 6.0, hardwareAccel := 1, selected := -1
    untilUs := 0, nextTickUs := 0, lastTickUs := 0, moving := false, faulted := false
    mode := .shape, linearProfile := .zero, yawProfile := .zero
    ax := 0.7, jx := 2.0, aw := 3.0, jw := 10.0
    buffer := [], overflow := false, connected := false
    ticks := 0, frames := 0, queries := 0, output := [] }

/-- `status_printf`. -/
def say (s : MotorTerminal F) (line : TerminalLine F) : MotorTerminal F :=
  { s with output := .line line :: s.output }

/-- A frame whose reply is not read. -/
def send (s : MotorTerminal F) (i : Fin 4) (frame : Frame) : MotorTerminal F :=
  { s with output := .sent i frame :: s.output }

def atRest (s : MotorTerminal F) : Bool :=
  !s.moving && (wheelIndices.all fun i => !(0.01 < fabs (s.commanded i))) &&
    (fabs s.linearProfile.acceleration < 0.001 && fabs s.yawProfile.acceleration < 0.001)

/-- Both profiles at zero. -/
def resetProfiles (s : MotorTerminal F) : MotorTerminal F :=
  { s with linearProfile := .zero, yawProfile := .zero }

/-- The loop of `stop`, for one wheel. -/
def stopWheel (brake : Bool) (s : MotorTerminal F) (i : Fin 4) : MotorTerminal F :=
  let s := { s with target := update s.target i 0 }
  if brake && s.online i then send { s with commanded := update s.commanded i 0 } i .brake else s

def stop (s : MotorTerminal F) (brake : Bool) : MotorTerminal F :=
  let s := { s with moving := false }
  let s := if brake then s.resetProfiles else s
  wheelIndices.foldl (stopWheel brake) s

/-- `faulted = true; stop(true)` and the message, at each of the four faults. -/
def fault (s : MotorTerminal F) (line : TerminalLine F) : MotorTerminal F :=
  (stop { s with faulted := true } true).say line

/-! ### Commands -/

/-- `number`: all of the word is a finite number. -/
def number (word : List Char) : Option F :=
  match strtod word with
  | some (.number v, []) => if isfinite v then some v else none
  | _ => none

variable (env : Bus)

/-- One step of the check of `clear`: a wheel is asked while all is good so far. -/
def clearWheel (state : Bool × MotorTerminal F) (i : Fin 4) : Bool × MotorTerminal F :=
  let (good, s) := state
  if good && s.online i then
    (env.mode s.queries == ddsm210ModeVelocity, { s with queries := s.queries + 1 })
  else (false, s)

def commandClear (s : MotorTerminal F) : MotorTerminal F :=
  let (good, s) := wheelIndices.foldl (clearWheel env) (true, s.stop true)
  if !good then s.say (.text "ERR clear: motor mode/reply missing; fault remains")
  else
    let now := env.clock s.ticks
    { s with faulted := false, ticks := s.ticks + 1, lastTickUs := now
             nextTickUs := now + 20000 }.say (.text "OK cleared; stopped")

def commandMode (s : MotorTerminal F) (args : List (List Char)) : Option (MotorTerminal F) :=
  match args with
  | [name, value] =>
    if name = "mode".toList ∧ s.atRest then some <|
      if value = "shape".toList ∧ s.selected = -1 then
        { s with mode := .shape }.resetProfiles.say .settings
      else if value = "hw".toList then { s with mode := .hw }.resetProfiles.say .settings
      else if value = "linear".toList then { s with mode := .linear }.resetProfiles.say .settings
      else s.say (.text "ERR mode; shape requires wheel all")
    else none
  | _ => none

def commandShape (s : MotorTerminal F) (args : List (List Char)) : Option (MotorTerminal F) :=
  match args with
  | [name, w₁, w₂, w₃, w₄] =>
    if name = "shape".toList ∧ s.atRest then do
      let a : F ← number w₁
      let b : F ← number w₂
      let c : F ← number w₃
      let d : F ← number w₄
      if 0.01 ≤ a && a ≤ 5 && 0.01 ≤ b && b ≤ 50 && 0.01 ≤ c && c ≤ 20 && 0.01 ≤ d && d ≤ 200 then
        some ({ s with ax := a, jx := b, aw := c, jw := d }.say .settings)
      else none
    else none
  | _ => none

def setHw (s : MotorTerminal F) (a : F) : MotorTerminal F :=
  if !s.atRest then s.say (.text "ERR settings only at rest")
  else { s with hardwareAccel := toUInt8 a }.say .settings

def commandHw (s : MotorTerminal F) (args : List (List Char)) : Option (MotorTerminal F) :=
  match args with
  | [name, word] =>
    if name = "hw".toList then do
      let a : F ← number word
      if 1 ≤ a && a ≤ 255 && floor a == a then some (s.setHw a) else none
    else none
  | _ => none

def setSw (s : MotorTerminal F) (a : F) : MotorTerminal F :=
  if !s.atRest then s.say (.text "ERR settings only at rest")
  else
    { s with softwareAccel := a, mode := if a == 0 then .hw else .linear }.resetProfiles.say
      .settings

def commandSw (s : MotorTerminal F) (args : List (List Char)) : Option (MotorTerminal F) :=
  match args with
  | [name, word] =>
    if name = "sw".toList then do
      let a : F ← number word
      if 0 ≤ a && a ≤ 100.0 then some (s.setSw a) else none
    else none
  | _ => none

/-- The end of `wheel`: only all wheels together are shaped. -/
def selectWheel (s : MotorTerminal F) (selected : ℤ) : MotorTerminal F :=
  { s with selected := selected
           mode := if selected ≠ -1 ∧ s.mode = TerminalMode.shape then .hw else s.mode }

def commandWheel (s : MotorTerminal F) (args : List (List Char)) : Option (MotorTerminal F) :=
  match args with
  | [name, word] =>
    if name = "wheel".toList ∧ s.atRest then some <|
      if word = "all".toList then (s.selectWheel (-1)).say .settings
      else match number word with
        | some (a : F) =>
          if 0 ≤ a && a < 4.0 && floor a == a then (s.selectWheel (toInt a)).say .settings
          else s.say (.text "ERR wheel index")
        | none => s.say (.text "ERR wheel index")
    else none
  | _ => none

/-- The wheel takes part in a run. -/
def driven (s : MotorTerminal F) (i : Fin 4) : Bool :=
  (s.selected < 0 || s.selected == (i.val : ℤ)) && s.online i

/-- The targets of a run with `a` and `b` RPM on the left and on the right. -/
def runTargets (s : MotorTerminal F) (a b : F) (i : Fin 4) : F :=
  if s.driven i then (if (wheelTable i).left then a else b) else 0

/-- A run that is accepted, for `c` seconds. -/
def beginRun (s : MotorTerminal F) (a b c : F) : MotorTerminal F :=
  let s := { s with target := s.runTargets a b }
  let s := if s.atRest then { s with lastTickUs := env.clock s.ticks, ticks := s.ticks + 1 } else s
  { s with
    moving := true, untilUs := env.clock s.ticks + UInt64.ofNat (toInt (c * 1000000.0)).toNat
    ticks := s.ticks + 1 }.say (.ran a b c)

/-- A run whose numbers are in range. -/
def startRun (s : MotorTerminal F) (a b c : F) : MotorTerminal F :=
  if s.faulted then
    s.say (.text "ERR fault latched; reboot after checking motor feedback")
  else if s.mode = .shape && !wheelIndices.all s.online then
    s.say (.text "ERR shape requires all four motors online")
  else if !wheelIndices.any s.driven then
    -- the targets are assigned before the test
    { s with target := s.runTargets a b }.say (.text "ERR no selected motor online")
  else beginRun env s a b c

def commandRun (s : MotorTerminal F) (args : List (List Char)) : Option (MotorTerminal F) :=
  match args with
  | [name, w₁, w₂, w₃] =>
    if name = "run".toList then do
      let a : F ← number w₁
      let b : F ← number w₂
      let c : F ← number w₃
      if fabs a ≤ 200 && fabs b ≤ 200 && 0.1 ≤ c && c ≤ 10 then some (startRun env s a b c)
      else none
    else none
  | _ => none

/-- The commands that are a single word. -/
def commandWord (s : MotorTerminal F) (args : List (List Char)) : Option (MotorTerminal F) :=
  match args with
  | [name] =>
    if name = "help".toList then some ((s.say .help).say .settings)
    else if name = "status".toList then some (s.say .settings)
    else if name = "stop".toList then some ((s.stop false).say (.text "OK stop"))
    else if name = "brake".toList then some ((s.stop true).say (.text "OK brake"))
    else if name = "clear".toList then some (commandClear env s)
    else none
  | _ => none

def command (s : MotorTerminal F) (line : List Char) : MotorTerminal F :=
  let args := strtok [' ', '\t'] line
  if args = [] then s
  else if 5 < args.length then s.say (.text "ERR too many arguments")
  else
    ((((((commandWord env s args).or (commandMode s args)).or (commandShape s args)).or
      (commandHw s args)).or (commandSw s args)).or (commandWheel s args)).or
      (commandRun env s args)
    |>.getD (s.say (.text "ERR invalid command or selection while moving; help"))

/-! ### The control tick -/

/-- The speeds of the two sides for the profiles, in RPM. -/
def shapedLeft (s : MotorTerminal F) : F :=
  (s.linearProfile.velocity - s.yawProfile.velocity * wheelSeparationM * 0.5) / wheelRadiusM *
    60 / twoPi

def shapedRight (s : MotorTerminal F) : F :=
  (s.linearProfile.velocity + s.yawProfile.velocity * wheelSeparationM * 0.5) / wheelRadiusM *
    60 / twoPi

/-- The speed the wheel is sent in this tick. -/
def nextCommanded (s : MotorTerminal F) (left right : F) (i : Fin 4) : F :=
  let delta := s.target i - s.commanded i
  let step := s.softwareAccel * 60.0 / twoPi / 50.0
  let delta := if s.mode = .linear ∧ 0 < s.softwareAccel then fmax (-step) (fmin step delta)
    else delta
  let commanded := if s.mode = .shape then (if (wheelTable i).left then left else right)
    else s.commanded i + delta
  if fabs commanded < 1e-6 then 0 else commanded

/-- `(int16_t)lround(..)`. -/
def velocityUnits (commanded : F) (i : Fin 4) : ℤ :=
  (Int16.ofInt (lround (commanded * ((wheelTable i).direction : F) * 10))).toInt

/-- `ddsm210_set_velocity` for one wheel. -/
def driveWheel (left right : F) (s : MotorTerminal F) (i : Fin 4) : MotorTerminal F :=
  let commanded := s.nextCommanded left right i
  { ({ s with commanded := update s.commanded i commanded }).send i
      (.velocity (velocityUnits commanded i) s.hardwareAccel) with frames := s.frames + 1 }

/-- The loop over the wheels: the first fault ends it. -/
def sendWheels (left right : F) : List (Fin 4) → MotorTerminal F → MotorTerminal F
  | [], s => s
  | i :: rest, s =>
    if !s.online i then sendWheels left right rest s
    else if !(env.reply s.frames).received then (driveWheel left right s i).fault (.replyFault i)
    else if (env.reply s.frames).errorCode ≠ 0 then
      (driveWheel left right s i).fault (.motorFault i (env.reply s.frames).errorCode)
    else sendWheels left right rest (driveWheel left right s i)

theorem neZero_wheels : NeZero 4 := inferInstance

attribute [local instance] neZero_wheels

/-- The targets of the two profiles, from the targets of the two front wheels. -/
def profileTargets (s : MotorTerminal F) : F × F :=
  let l := s.target 0 * twoPi / 60 * wheelRadiusM
  let r := s.target 1 * twoPi / 60 * wheelRadiusM
  ((l + r) * 0.5, (r - l) / wheelSeparationM)

/-- The yaw profile moves on after the linear one. -/
def advanceYaw (s : MotorTerminal F) (dt : F) : MotorTerminal F :=
  match motionProfileStep s.yawProfile s.profileTargets.2 s.aw s.jw dt with
  | none => s.fault (.profileFault dt)
  | some yaw =>
    let s := { s with yawProfile := yaw }
    if 210.0 < fmax (fabs s.shapedLeft) (fabs s.shapedRight) then s.fault .speedFault else s

/-- The shaped branch: the profiles move on, or the terminal faults. -/
def advanceProfiles (s : MotorTerminal F) (dt : F) : MotorTerminal F :=
  match motionProfileStep s.linearProfile s.profileTargets.1 s.ax s.jx dt with
  | none => s.fault (.profileFault dt)
  | some linear => advanceYaw { s with linearProfile := linear } dt

/-- The period the profiles integrate over. -/
def tickDt (s : MotorTerminal F) (now : UInt64) : F :=
  if s.atRest then 0.02
  else if s.lastTickUs ≠ 0 then ((now - s.lastTickUs).toNat : F) / 1000000.0 else 0.02

/-- An update that is due. -/
def tick (s : MotorTerminal F) (now : UInt64) : MotorTerminal F :=
  let dt := s.tickDt now
  let s := { s with lastTickUs := now, nextTickUs := now + 20000 }
  if s.mode = .shape then
    let s := s.advanceProfiles dt
    if s.faulted then s else sendWheels env s.shapedLeft s.shapedRight wheelIndices s
  else sendWheels env 0 0 wheelIndices s

/-- The end of a run: the targets are withdrawn. -/
def finishRun (s : MotorTerminal F) (now : UInt64) : MotorTerminal F :=
  if s.moving && s.untilUs ≤ now then (s.stop false).say (.text "DONE duration; ramping to zero")
  else s

def update (s : MotorTerminal F) : MotorTerminal F :=
  if s.faulted then s
  else
    let now := env.clock s.ticks
    let s := { s with ticks := s.ticks + 1 }.finishRun now
    if now < s.nextTickUs then s else s.tick env now

/-! ### The main loop -/

/-- The probe of one wheel. -/
def beginWheel (s : MotorTerminal F) (i : Fin 4) : MotorTerminal F :=
  let s :=
    if env.port i then
      { s with online := Function.update s.online i (0 ≤ env.mode s.queries)
               queries := s.queries + 1 }
    else s
  let s := if s.online i then s.send i .brake else s
  s.say (.wheel i (s.online i))

def boot : MotorTerminal F := wheelIndices.foldl (beginWheel env) initial

/-- The line read so far is dropped. -/
def dropLine (s : MotorTerminal F) : MotorTerminal F := { s with buffer := [], overflow := false }

/-- One character from the host. -/
def receive (s : MotorTerminal F) (ch : Char) : MotorTerminal F :=
  if ch = '!' ∨ ch = '\x03' then (s.stop true).dropLine.say (.text "OK brake")
  else if ch = '\r' ∨ ch = '\n' then
    -- the C string ends at the first null character
    let line := s.buffer.reverse.takeWhile (· ≠ '\x00')
    (if !s.overflow then command env s line else s.say (.text "ERR line too long")).dropLine
  else if ch = '\x08' ∨ ch = '\x7f' then { s with buffer := s.buffer.tail }
  else if s.buffer.length + 1 < 128 then { s with buffer := ch :: s.buffer }
  else { s with overflow := true }

/-- The host has gone, or is here again. -/
def connect (s : MotorTerminal F) (mounted : Bool) : MotorTerminal F :=
  let s := if s.connected && !mounted then (s.stop true).dropLine else s
  let s := if !s.connected && mounted then (s.say .help).say .settings else s
  { s with connected := mounted }

/-- The parts of an iteration of the main loop. -/
inductive Event
  /-- `tud_mounted` is read. -/
  | poll (mounted : Bool)
  | received (ch : Char)
  | update
deriving DecidableEq

def step (s : MotorTerminal F) : Event → MotorTerminal F
  | .poll mounted => s.connect mounted
  | .received ch => s.receive env ch
  | .update => s.update env

def terminalMachine : Machine (MotorTerminal F) Event where
  step := step env
  time _ := none

/-- What the USB port shows one iteration of the main loop. -/
structure Host where
  mounted : Bool
  received : List Char

/-- One iteration: the motors are updated only with a host. -/
def Host.iteration (host : Host) : List Event :=
  .poll host.mounted :: host.received.map .received ++ if host.mounted then [.update] else []

/-- The main loop over the given iterations. -/
def mainLoop (hosts : List Host) : List Event := hosts.flatMap Host.iteration

end MotorTerminal

end Model
