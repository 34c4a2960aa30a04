/-
Runs of the calibration protocol, and what is safe in every one of them.

A run starts at `calibrationInit` and takes any sequence of calls and external
writes; it records the requests it accepted, latest first.

* `protocol_safety` — motion is authorised only in an open, fault-free session,
  with bounded velocities, and never later than 350 ms after the last accepted
  `drive`; a fault is cleared by `calibrate` alone;
* `lapsed_session_closes_iff` — a call that finds the session lease lapsed closes
  the session, unless a trial bound has been reached as well.
-/
import Base101.ProtocolStep
import Base101.Machine
import Base101.Clock

open Double CalibrationProtocol

/-! ### Runs -/

/-- What can happen to the protocol state. -/
inductive ProtocolEvent
  | command (line : List Char) (now : UInt64)
  | expire (now : UInt64)
  | disconnect
  | stop (reason : String)
  | fault (reason : String)
  /-- The firmware writes `ready` and `at_rest`. -/
  | observe (ready atRest : Bool)

/-- A state and the requests accepted on the way to it, latest first. -/
structure ProtocolRun (F : Type) where
  state : CalibrationProtocol F
  history : List (Request × UInt64)
deriving DecidableEq

section Runs

variable {F : Type} [Double F]

/-- The request of a line, when the call accepts it. -/
def accepted (s : CalibrationProtocol F) (line : List Char) (now : UInt64) : Option Request :=
  if (calibrationCommand s line now).2.2.isOk then lineRequest line else none

/-- The history after a call that accepted `r`, if anything. -/
def recordAccepted (history : List (Request × UInt64)) (now : UInt64) :
    Option Request → List (Request × UInt64)
  | some r => (r, now) :: history
  | none => history

/-- The machine of the protocol. -/
def protocolMachine (F : Type) [Double F] : Machine (ProtocolRun F) ProtocolEvent where
  step run
    | .command line now =>
      { state := (calibrationCommand run.state line now).1
        history := recordAccepted run.history now (accepted run.state line now) }
    | .expire now => { run with state := (calibrationExpire run.state now).1 }
    | .disconnect => { run with state := calibrationDisconnect run.state }
    | .stop reason => { run with state := calibrationStop run.state reason }
    | .fault reason => { run with state := calibrationFault run.state reason }
    | .observe ready atRest => { run with state := { run.state with ready, atRest } }
  time
    | .command _ now => some now
    | .expire now => some now
    | _ => none

/-- The run before anything happened. -/
def ProtocolRun.boot (defaults : CalibrationParameters F) : ProtocolRun F :=
  ⟨calibrationInit defaults, []⟩

/-- When the last accepted `drive` arrived. -/
def lastDrive (history : List (Request × UInt64)) : Option UInt64 :=
  history.findSome? fun
    | (.drive _ _, t) => some t
    | _ => none

/-- A command with its acceptance spelled out. -/
theorem commanded_accepted (s : CalibrationProtocol F) (line : List Char) (now : UInt64) :
    ∃ expired error, Expired s now expired ∧
      Handled expired.1.idle now expired.2 (lineRequest line)
        ((calibrationCommand s line now).1, (calibrationCommand s line now).2.1, error) ∧
      accepted s line now = if error = none then lineRequest line else none := by
  have h := commanded s now line
  rw [accepted]
  generalize calibrationCommand s line now = out at h ⊢
  obtain ⟨hexpired, handled, hreply, -⟩ := h
  refine ⟨_, _, hexpired, handled, ?_⟩
  simp [hreply]

/-- An accepted command: the line asked for `r` and was processed without an error. -/
theorem handled_of_accepted {s : CalibrationProtocol F} {line : List Char} {now : UInt64}
    {r : Request} (h : accepted s line now = some r) :
    lineRequest line = some r ∧ ∃ expired s' brake, Expired s now expired ∧
      (calibrationCommand s line now).1 = s' ∧
      Handled expired.1.idle now expired.2 (some r) (s', brake, none) := by
  obtain ⟨expired, error, hexpired, handled, hacc⟩ := commanded_accepted s line now
  rw [hacc] at h
  split_ifs at h with herror
  rw [h, herror] at handled
  exact ⟨h, expired, _, _, hexpired, rfl, handled⟩

end Runs

/-! ### What holds of every state -/

namespace CalibrationProtocol

variable {F : Type} [Double F] {s : CalibrationProtocol F} {now : UInt64}

/-- The safety of a state, whatever the arithmetic. -/
structure Sound (s : CalibrationProtocol F) : Prop where
  exclusive : ¬(s.driving ∧ s.releasing)
  session : s.Moving → s.session
  fault : s.Moving → s.fault = false
  still : s.driving = false → s.vx = 0 ∧ s.wz = 0
  vx : s.vx = 0 ∨ InRange (-0.4) 0.4 s.vx
  wz : s.wz = 0 ∨ InRange (-0.8) 0.8 s.wz

omit [Double F] in
theorem not_moving_iff : ¬s.Moving ↔ s.driving = false ∧ s.releasing = false := by
  simp [Moving]

@[simp] theorem calibrationStop_not_moving (reason : String) :
    ¬(calibrationStop s reason).Moving := by
  simp [Moving, calibrationStop]

@[simp] theorem calibrationFault_not_moving (reason : String) :
    ¬(calibrationFault s reason).Moving := by
  simp [Moving, calibrationFault, calibrationStop]

/-- A state without motion is safe. -/
theorem Sound.of_still (h : ¬s.Moving) (hvx : s.vx = 0) (hwz : s.wz = 0) : s.Sound where
  exclusive hboth := h (.inl hboth.1)
  session hm := absurd hm h
  fault hm := absurd hm h
  still _ := ⟨hvx, hwz⟩
  vx := .inl hvx
  wz := .inl hwz

theorem Sound.init (defaults : CalibrationParameters F) : (calibrationInit defaults).Sound :=
  .of_still (by simp [Moving, calibrationInit]) rfl rfl

theorem Sound.stop (s : CalibrationProtocol F) (reason : String) :
    (calibrationStop s reason).Sound :=
  .of_still (calibrationStop_not_moving reason) rfl rfl

theorem Sound.faulted (s : CalibrationProtocol F) (reason : String) :
    (calibrationFault s reason).Sound :=
  .of_still (calibrationFault_not_moving reason) rfl rfl

/-- Only the session, the fault and the motion fields matter. -/
theorem Sound.congr {s' : CalibrationProtocol F} (h : s.Sound)
    (hsession : s'.session = s.session) (hfault : s'.fault = s.fault)
    (hdriving : s'.driving = s.driving) (hreleasing : s'.releasing = s.releasing)
    (hvx : s'.vx = s.vx) (hwz : s'.wz = s.wz) : s'.Sound where
  exclusive := by rw [hdriving, hreleasing]; exact h.exclusive
  session := by rw [Moving, hdriving, hreleasing, hsession]; exact h.session
  fault := by rw [Moving, hdriving, hreleasing, hfault]; exact h.fault
  still := by rw [hdriving, hvx, hwz]; exact h.still
  vx := by rw [hvx]; exact h.vx
  wz := by rw [hwz]; exact h.wz

theorem Sound.expired {out : CalibrationProtocol F × Bool} (h : s.Sound)
    (hout : Expired s now out) : out.1.Sound := by
  cases hout with
  | nothing => exact h
  | _ => exact .stop _ _

theorem Sound.idle (h : s.Sound) : s.idle.Sound := h.congr rfl rfl rfl rfl rfl rfl

theorem Sound.handled {brake : Bool} {r : Option Request}
    {out : CalibrationProtocol F × Bool × Option String} (h : s.Sound)
    (hout : Handled s now brake r out) : out.1.Sound := by
  cases hout with
  | refused | status => exact h
  | rejectedDrive | stop | hello | idleRelease => exact .stop _ _
  | calibrate => exact .of_still (by simp [Moving, calibrationStop]) rfl rfl
  | heartbeat | configure | measure | bound => exact h.congr rfl rfl rfl rfl rfl rfl
  | drive hsession _ hfault hv hw =>
    exact
      { exclusive := by simp
        session := fun _ => hsession
        fault := fun _ => hfault
        still := fun hd => by cases hd
        vx := .inr (value_inRange hv)
        wz := .inr (value_inRange hw) }
  | release hsession hmoving =>
    exact
      { exclusive := by simp
        session := fun _ => hsession
        fault := fun _ => h.fault hmoving
        still := fun _ => ⟨rfl, rfl⟩
        vx := .inl rfl
        wz := .inl rfl }

/-! ### What one call changes -/

theorem Expired.fault {out : CalibrationProtocol F × Bool} (h : Expired s now out) :
    out.1.fault = s.fault := by
  cases h <;> rfl

theorem Expired.parameters {out : CalibrationProtocol F × Bool} (h : Expired s now out) :
    out.1.parameters = s.parameters := by
  cases h <;> rfl

/-- Expiry never opens a session. -/
theorem Expired.session {out : CalibrationProtocol F × Bool} (h : Expired s now out)
    (hs : s.session = false) : out.1.session = false := by
  cases h with
  | heartbeat => rfl
  | _ => exact hs

/-- Expiry leaves a drive running only within its lease. -/
theorem Expired.driving {out : CalibrationProtocol F × Bool} (h : Expired s now out)
    (hd : out.1.driving) : s.driving ∧ ¬s.OperatorLapsed now ∧ out.1.operatorUs = s.operatorUs := by
  cases h with
  | nothing _ _ hdriving => exact ⟨hd, hdriving hd, rfl⟩
  | _ => cases hd

/-- Only `calibrate` clears a fault. -/
theorem Handled.fault {brake : Bool} {r : Option Request}
    {out : CalibrationProtocol F × Bool × Option String} (h : Handled s now brake r out) :
    out.1.fault = s.fault ∨ (r = some .calibrate ∧ out.2.2 = none) := by
  cases h with
  | calibrate => exact .inr ⟨rfl, rfl⟩
  | _ => exact .inl rfl

/-- A drive running after a line is an old one or the one just accepted. -/
theorem Handled.driving {brake : Bool} {r : Option Request}
    {out : CalibrationProtocol F × Bool × Option String} (h : Handled s now brake r out)
    (hd : out.1.driving) :
    (s.driving ∧ out.1.operatorUs = s.operatorUs ∧
        ¬(out.2.2 = none ∧ ∃ vx wz, r = some (.drive vx wz))) ∨
      (out.1.operatorUs = now ∧ s.fault = false ∧ out.2.2 = none ∧
        ∃ vx wz, r = some (.drive vx wz)) := by
  cases h with
  | refused => exact .inl ⟨hd, rfl, by simp⟩
  | status | heartbeat | measure | bound => exact .inl ⟨hd, rfl, by simp⟩
  | configure _ _ _ hp =>
    refine .inl ⟨hd, rfl, ?_⟩
    rintro ⟨-, vx, wz, hr⟩
    cases hr
    cases hp
  | drive _ _ hfault => exact .inr ⟨rfl, hfault, rfl, _, _, rfl⟩
  | _ => cases hd

end CalibrationProtocol

/-! ### The run invariant -/

section Invariant

variable {F : Type} [Double F]

theorem lastDrive_record (history : List (Request × UInt64)) (now : UInt64) (vx wz : String) :
    lastDrive (recordAccepted history now (some (.drive vx wz))) = some now := rfl

/-- Nothing but `drive` renews the operator lease. -/
theorem lastDrive_record_of_ne (history : List (Request × UInt64)) (now : UInt64)
    {r : Option Request} (h : ¬∃ vx wz, r = some (.drive vx wz)) :
    lastDrive (recordAccepted history now r) = lastDrive history := by
  cases r with
  | none => rfl
  | some r =>
    cases r with
    | drive vx wz => exact absurd ⟨vx, wz, rfl⟩ h
    | _ => rfl

/-- The state is safe, and a drive in progress is the last one accepted. -/
structure Tracked (t : UInt64) (run : ProtocolRun F) : Prop where
  sound : run.state.Sound
  drive : run.state.driving →
    lastDrive run.history = some run.state.operatorUs ∧ run.state.operatorUs ≤ t

/-- A drive in progress is less than 350 ms old. -/
def FreshDrive (run : ProtocolRun F) (now : UInt64) : Prop :=
  run.state.driving → ∃ t, lastDrive run.history = some t ∧ t ≤ now ∧
    now - t < calibrationOperatorUs

theorem Tracked.boot (defaults : CalibrationParameters F) :
    Tracked 0 (ProtocolRun.boot defaults) :=
  ⟨.init defaults, nofun⟩

/-- An expiry keeps the invariant and leaves a fresh drive or none. -/
theorem Tracked.expire {t now : UInt64} {run : ProtocolRun F} (h : Tracked t run) (ht : t ≤ now) :
    Tracked now { run with state := (calibrationExpire run.state now).1 } ∧
      FreshDrive { run with state := (calibrationExpire run.state now).1 } now := by
  have hexpired := expired run.state now
  generalize calibrationExpire run.state now = out at hexpired ⊢
  have hdrive : out.1.driving → lastDrive run.history = some out.1.operatorUs ∧
      out.1.operatorUs ≤ now ∧ now - out.1.operatorUs < calibrationOperatorUs := by
    intro hd
    obtain ⟨hd', hlease, huntouched⟩ := hexpired.driving hd
    obtain ⟨hlast, hle⟩ := h.drive hd'
    rw [huntouched]
    exact ⟨hlast, UInt64.le_trans hle ht, UInt64.not_le.mp hlease⟩
  refine ⟨⟨h.sound.expired hexpired, ?_⟩, ?_⟩
  · intro hd
    exact ⟨(hdrive hd).1, (hdrive hd).2.1⟩
  · intro hd
    exact ⟨_, hdrive hd⟩

/-- So does a command. -/
theorem Tracked.command {t now : UInt64} {run : ProtocolRun F} (h : Tracked t run) (ht : t ≤ now)
    (line : List Char) :
    Tracked now ((protocolMachine F).step run (.command line now)) ∧
      FreshDrive ((protocolMachine F).step run (.command line now)) now := by
  obtain ⟨expired, error, hexpired, handled, hacc⟩ := commanded_accepted run.state line now
  change Tracked now ⟨_, recordAccepted run.history now (accepted run.state line now)⟩ ∧
    FreshDrive ⟨_, recordAccepted run.history now (accepted run.state line now)⟩ now
  generalize calibrationCommand run.state line now = out at handled ⊢
  have hdrive : out.1.driving →
      lastDrive (recordAccepted run.history now (accepted run.state line now)) =
        some out.1.operatorUs ∧ out.1.operatorUs ≤ now ∧
        now - out.1.operatorUs < calibrationOperatorUs := by
    intro hd
    rcases handled.driving hd with ⟨hd', huntouched, hnot⟩ | ⟨hnow, -, rfl, vx, wz, hline⟩
    · -- an old drive: its lease was tested by the expiry of this call
      obtain ⟨hd'', hlease, huntouched'⟩ := hexpired.driving hd'
      obtain ⟨hlast, hle⟩ := h.drive hd''
      have hsame : out.1.operatorUs = run.state.operatorUs := huntouched.trans huntouched'
      have hnone : ¬∃ vx wz, accepted run.state line now = some (.drive vx wz) := by
        rintro ⟨vx, wz, hr⟩
        rw [hacc] at hr
        split_ifs at hr with herror
        exact hnot ⟨herror, vx, wz, hr⟩
      rw [lastDrive_record_of_ne _ _ hnone, hsame]
      exact ⟨hlast, UInt64.le_trans hle ht, UInt64.not_le.mp hlease⟩
    · -- a drive accepted now
      rw [hacc, if_pos rfl, hline, lastDrive_record, hnow]
      exact ⟨rfl, UInt64.le_refl now, by rw [Clock.sub_self]; decide⟩
  refine ⟨⟨((h.sound.expired hexpired).idle).handled handled, ?_⟩, ?_⟩
  · intro hd
    exact ⟨(hdrive hd).1, (hdrive hd).2.1⟩
  · intro hd
    exact ⟨_, hdrive hd⟩

/-- The step lemma: every event keeps the invariant, and every call leaves a
fresh drive or none. -/
theorem Tracked.step {t : UInt64} {run : ProtocolRun F} {e : ProtocolEvent} (h : Tracked t run)
    (ha : (protocolMachine F).Admits t e) :
    Tracked ((protocolMachine F).after t e) ((protocolMachine F).step run e) ∧
      ∀ now, (protocolMachine F).time e = some now →
        FreshDrive ((protocolMachine F).step run e) now := by
  cases e with
  | command line now =>
    refine ⟨(h.command ha line).1, ?_⟩
    intro now' hnow
    cases hnow
    exact (h.command ha line).2
  | expire now =>
    refine ⟨(h.expire ha).1, ?_⟩
    intro now' hnow
    cases hnow
    exact (h.expire ha).2
  | disconnect => exact ⟨⟨.stop _ _, nofun⟩, nofun⟩
  | stop reason => exact ⟨⟨.stop _ _, nofun⟩, nofun⟩
  | fault reason => exact ⟨⟨.faulted _ _, nofun⟩, nofun⟩
  | observe ready atRest => exact ⟨⟨h.sound.congr rfl rfl rfl rfl rfl rfl, h.drive⟩, nofun⟩

/-- The run lemma. -/
theorem Tracked.run (defaults : CalibrationParameters F) {es : List ProtocolEvent}
    (ht : (protocolMachine F).Timely 0 es) :
    Tracked ((protocolMachine F).clock 0 es) ((protocolMachine F).run (.boot defaults) es) :=
  Machine.invariant_of_step (fun _ _ _ h ha => (h.step ha).1) (.boot defaults) ht

/-- A fault outlives everything but an accepted `calibrate`. -/
theorem fault_step (run : ProtocolRun F) (e : ProtocolEvent) (hfault : run.state.fault) :
    ((protocolMachine F).step run e).state.fault ∨
      ∃ line now, e = .command line now ∧ accepted run.state line now = some .calibrate := by
  cases e with
  | command line now =>
    obtain ⟨expired, error, hexpired, handled, hacc⟩ := commanded_accepted run.state line now
    rcases handled.fault with hsame | ⟨hline, herror⟩
    · left
      show (calibrationCommand run.state line now).1.fault = true
      rw [hsame]
      exact hexpired.fault.trans hfault
    · right
      change error = none at herror
      exact ⟨line, now, rfl, by rw [hacc, if_pos herror, hline]⟩
  | expire now => exact .inl ((expired run.state now).fault.trans hfault)
  | fault reason => exact .inl rfl
  | _ => exact .inl hfault

/-- No drive is accepted under a fault. -/
theorem fault_of_accepted_drive {s : CalibrationProtocol F} {line : List Char} {now : UInt64}
    {vx wz : String} (h : accepted s line now = some (.drive vx wz)) : s.fault = false := by
  obtain ⟨-, expired, s', brake, hexpired, -, handled⟩ := handled_of_accepted h
  rw [← hexpired.fault]
  cases handled with
  | drive _ _ hfault => exact hfault
  | configure _ _ _ hp => cases hp

end Invariant

/-! ### Safety -/

section Exact

variable {K : Type} [Field K] [LinearOrder K] [IsStrictOrderedRing K] [FloorRing K] [Libm K]

/-- The state is safe. -/
structure CalibrationProtocol.Safe (s : CalibrationProtocol K) : Prop where
  exclusive : ¬(s.driving ∧ s.releasing)
  live : s.driving ∨ s.releasing → s.session ∧ s.fault = false
  still : s.driving = false → s.vx = 0 ∧ s.wz = 0
  vx : |s.vx| ≤ 0.4
  wz : |s.wz| ≤ 0.8

theorem CalibrationProtocol.Sound.safe {s : CalibrationProtocol K} (h : s.Sound) : s.Safe where
  exclusive := h.exclusive
  live hm := ⟨h.session hm, h.fault hm⟩
  still := h.still
  vx := by
    rcases h.vx with hzero | hrange
    · rw [hzero, abs_zero]
      norm_num
    · exact abs_le.mpr (inRange_exact.mp hrange)
  wz := by
    rcases h.wz with hzero | hrange
    · rw [hzero, abs_zero]
      norm_num
    · exact abs_le.mpr (inRange_exact.mp hrange)

/-- In every run with a non-decreasing clock: every state is safe, every call
leaves a drive less than 350 ms old or none, a fault is cleared by an accepted
`calibrate` only, and no drive is accepted under one. -/
theorem protocol_safety (defaults : CalibrationParameters K) (pre : List ProtocolEvent)
    (e : ProtocolEvent) (ht : (protocolMachine K).Timely 0 (pre ++ [e])) :
    let run := (protocolMachine K).run (.boot defaults) pre
    let next := (protocolMachine K).step run e
    (run.state.Safe ∧ next.state.Safe) ∧
      (∀ now, (protocolMachine K).time e = some now → FreshDrive next now) ∧
      (run.state.fault → next.state.fault ∨
        ∃ line now, e = .command line now ∧ accepted run.state line now = some .calibrate) ∧
      ∀ line now vx wz, accepted run.state line now = some (.drive vx wz) →
        run.state.fault = false := by
  intro run next
  obtain ⟨hpre, ha, -⟩ := Machine.timely_append.mp ht
  have htracked : Tracked ((protocolMachine K).clock 0 pre) run := .run defaults hpre
  obtain ⟨hnext, hfresh⟩ := htracked.step ha
  refine ⟨⟨htracked.sound.safe, hnext.sound.safe⟩, hfresh, fault_step run e, ?_⟩
  intro line now vx wz hdrive
  exact fault_of_accepted_drive hdrive

/-- The parameters the firmware's own protocol test starts from. -/
def testParameters : CalibrationParameters ℚ :=
  { ax := 0.7, jx := 2, aw := 3, jw := 10, kIcr := 1.5, radius := 0, separation := 0, ramp := 0
    rpmMax := 0, vxMax := 0, wzMax := 0, lpf := 0, kp := 0, ki := 0, correctionMax := 0
    deadband := 0, correctionAccel := 0, correctionJerk := 0, yawFeedback := 0 }

/-- A session that is driving. -/
def drivingEvents : List ProtocolEvent :=
  [.observe true true, .command "20 hello 2".toList 0, .command "22 drive .1 .3".toList 10]

/-- The last expiry before the operator lease of a running drive lapses. -/
theorem protocol_safety_driving :
    let run := (protocolMachine ℚ).run (.boot testParameters) drivingEvents
    let next := (protocolMachine ℚ).step run (.expire 350009)
    next.state.driving = true ∧ next.state.Safe ∧ FreshDrive next 350009 := by
  have h := protocol_safety testParameters drivingEvents (.expire 350009) (by decide +kernel)
  exact ⟨by decide +kernel, h.1.2, h.2.1 350009 rfl⟩

end Exact

/-! ### The session lease -/

section Lease

variable {F : Type} [Double F]

/-- The requests that are served in a session only. -/
def Request.needsSession : Request → Bool
  | .heartbeat | .drive _ _ | .release | .set _ | .measure _ | .bound _ | .config _
  | .calibrate => true
  | _ => false

/-- A line that finds the session lease lapsed is not served, and closes the
session unless it opens a new one. -/
def ClosesLapsed (run : ProtocolRun F) (e : ProtocolEvent) : Prop :=
  ∀ line now, e = .command line now → run.state.HeartbeatLapsed now →
    (∀ r, accepted run.state line now = some r → r.needsSession = false) ∧
      (((protocolMachine F).step run e).state.session = false ∨
        accepted run.state line now = some (.hello "2"))

/-- A line other than `hello 2` does not find an open session lapsed together
with a trial bound that has been reached. -/
def LapsesAlone (run : ProtocolRun F) (e : ProtocolEvent) : Prop :=
  ∀ line now, e = .command line now → run.state.HeartbeatLapsed now → run.state.session →
    run.state.BoundReached now → lineRequest line = some (.hello "2")

namespace CalibrationProtocol

variable {s : CalibrationProtocol F} {now : UInt64}

/-- Without a session only `stop`, `hello` and `status` are accepted. -/
theorem Handled.closed {brake : Bool} {r : Option Request}
    {out : CalibrationProtocol F × Bool × Option String} (h : Handled s now brake r out)
    (hs : s.session = false) :
    (out.1.session = false ∨ (r = some (.hello "2") ∧ out.2.2 = none)) ∧
      ∀ q, r = some q → out.2.2 = none → q.needsSession = false := by
  have hclosed : ¬s.session := by simp [hs]
  cases h with
  | refused => exact ⟨.inl hs, nofun⟩
  | stop => exact ⟨.inl hs, fun q hq _ => by cases hq; rfl⟩
  | hello => exact ⟨.inr ⟨rfl, rfl⟩, fun q hq _ => by cases hq; rfl⟩
  | status => exact ⟨.inl hs, fun q hq _ => by cases hq; rfl⟩
  | rejectedDrive _ _ _ hsession => exact absurd hsession hclosed
  | heartbeat hsession | calibrate hsession | drive hsession | release hsession
  | idleRelease hsession | configure hsession | measure _ hsession | bound hsession =>
    exact absurd hsession hclosed

/-- A line never closes an open session. -/
theorem Handled.open {brake : Bool} {r : Option Request}
    {out : CalibrationProtocol F × Bool × Option String} (h : Handled s now brake r out)
    (hs : s.session) : out.1.session := by
  cases h with
  | hello => rfl
  | _ => exact hs

/-- `hello 2` is always accepted. -/
theorem Handled.hello_accepted {brake : Bool}
    {out : CalibrationProtocol F × Bool × Option String}
    (h : Handled s now brake (some (.hello "2")) out) : out.2.2 = none := by
  cases h with
  | refused _ _ hr => exact absurd rfl hr.2.1
  | _ => rfl

/-- Expiry closes a lapsed session, unless it stops at a trial bound. -/
theorem Expired.closes {out : CalibrationProtocol F × Bool} (h : Expired s now out)
    (hlapsed : s.HeartbeatLapsed now) :
    out.1.session = false ↔ ¬(s.session ∧ s.BoundReached now) := by
  by_cases hs : s.session = true
  · cases h with
    | bound hb =>
      -- stopping at the bound says nothing about the session
      constructor
      · intro hclosed
        change s.session = false at hclosed
        rw [hs] at hclosed
        cases hclosed
      · intro hnot
        exact absurd ⟨hs, hb⟩ hnot
    | heartbeat hb =>
      constructor
      · rintro - ⟨-, hboth⟩
        exact hb hboth
      · intro _
        rfl
    | operator _ hsession | release _ hsession | nothing _ hsession =>
      exact absurd hlapsed (hsession hs)
  · constructor
    · rintro - ⟨hopen, -⟩
      exact hs hopen
    · intro _
      exact h.session (by simpa using hs)

end CalibrationProtocol

/-- At every step, exactly: the lapsed session closes unless the step finds a
trial bound reached as well. -/
theorem closesLapsed_iff (run : ProtocolRun F) (e : ProtocolEvent) :
    ClosesLapsed run e ↔ LapsesAlone run e := by
  refine forall_congr' fun line => forall_congr' fun now => forall_congr' fun he =>
    forall_congr' fun hlapsed => ?_
  subst he
  obtain ⟨expired, error, hexpired, handled, hacc⟩ := commanded_accepted run.state line now
  change (∀ r, accepted run.state line now = some r → r.needsSession = false) ∧
    ((calibrationCommand run.state line now).1.session = false ∨
      accepted run.state line now = some (.hello "2")) ↔ _
  rw [hacc]
  generalize calibrationCommand run.state line now = out at handled ⊢
  by_cases hclosed : expired.1.session = false
  · -- the expiry closed the session: the line is processed without one
    obtain ⟨hsession, hserved⟩ := handled.closed hclosed
    constructor
    · intro _ hs hb
      exact absurd ⟨hs, hb⟩ ((hexpired.closes hlapsed).mp hclosed)
    · intro _
      constructor
      · intro r hr
        split_ifs at hr with herror
        exact hserved r hr herror
      · rcases hsession with hsession | ⟨hline, herror⟩
        · exact .inl hsession
        · change error = none at herror
          exact .inr (by rw [if_pos herror, hline])
  · -- the trial bound came first: the session is still open for the line
    have hboth : run.state.session ∧ run.state.BoundReached now := by
      by_contra hnot
      exact hclosed ((hexpired.closes hlapsed).mpr hnot)
    have hopen : out.1.session = true := handled.open (by simpa [idle] using hclosed)
    constructor
    · rintro ⟨-, hstill | hhello⟩ - -
      · rw [hopen] at hstill
        cases hstill
      · split_ifs at hhello
        exact hhello
    · intro hline
      have hline := hline hboth.1 hboth.2
      rw [hline] at handled ⊢
      have herror : error = none := handled.hello_accepted
      rw [if_pos herror]
      exact ⟨fun r hr => by cases hr; rfl, .inr rfl⟩

/-- Over a run: every call closes a lapsed session exactly when no call finds the
lapse together with a trial bound that has been reached. -/
theorem lapsed_session_closes_iff (defaults : CalibrationParameters F)
    (es : List ProtocolEvent) :
    (protocolMachine F).Always ClosesLapsed (.boot defaults) es ↔
      (protocolMachine F).Always LapsesAlone (.boot defaults) es :=
  Machine.always_congr closesLapsed_iff

end Lease

/-- A session opened at 0 with a trial bound of 100 ms. -/
def boundedEvents : List ProtocolEvent :=
  [.observe true true, .command "40 hello 2".toList 0, .command "41 bound 100".toList 1]

/-- Both deadlines have passed at 600 ms, and a `heartbeat` keeps the session. -/
theorem lapsed_session_revived :
    (protocolMachine ℚ).Timely 0 (boundedEvents ++ [.command "42 heartbeat".toList 600000]) ∧
      ¬(protocolMachine ℚ).Always ClosesLapsed (.boot testParameters)
        (boundedEvents ++ [.command "42 heartbeat".toList 600000]) := by
  refine ⟨by decide +kernel, ?_⟩
  intro h
  have hlast := h.at _ _ rfl (by decide +kernel)
  exact absurd (hlast.1 .heartbeat (by decide +kernel)) nofun
