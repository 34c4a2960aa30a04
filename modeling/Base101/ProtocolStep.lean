/-
What one call of the calibration protocol can do.

`Expired` lists the outcomes of `calibrationExpire` and `Handled` those of
processing a line, each with the tests that lead to it; `Commanded` puts the two
phases of `calibrationCommand` together.  Every fact about runs is read off
these lists, so the code itself is unfolded here only.

* `expired` — the outcome of an expiry is in the list;
* `commanded` — so is the outcome of a command, and its reply is `ok` exactly
  when the line was accepted.
-/
import Base101.Protocol

variable {F : Type} [Double F]

open Double

/-! ### Tests -/

/-- The test `value` makes on a number. -/
def InRange (low high v : F) : Prop := isfinite v ∧ ¬v < low ∧ ¬high < v

theorem value_inRange {word : String} {low high v : F} (h : value word low high = some v) :
    InRange low high v := by
  rw [value] at h
  split at h
  · split_ifs at h with hbad
    cases h
    simp only [Bool.or_eq_true, Bool.not_eq_eq_eq_not, Bool.not_true, decide_eq_true_eq,
      not_or, Bool.not_eq_false] at hbad
    exact ⟨hbad.1.1, hbad.1.2, hbad.2⟩
  · cases h

theorem inRange_exact {K : Type} [Field K] [LinearOrder K] [FloorRing K] [Libm K]
    {low high v : K} : InRange low high v ↔ low ≤ v ∧ v ≤ high := by
  simp [InRange]

namespace CalibrationProtocol

variable (s : CalibrationProtocol F) (now : UInt64)

/-- A set trial bound has been reached. -/
def BoundReached : Prop := s.boundUntilUs ≠ 0 ∧ s.boundUntilUs ≤ now

/-- The last accepted `hello` or `heartbeat` is 500 ms old. -/
def HeartbeatLapsed : Prop := calibrationHeartbeatUs ≤ now - s.heartbeatUs

/-- The last accepted `drive` is 350 ms old. -/
def OperatorLapsed : Prop := calibrationOperatorUs ≤ now - s.operatorUs

/-- The release backstop has been reached. -/
def ReleaseReached : Prop := s.releaseUntilUs ≤ now

instance : Decidable (s.BoundReached now) := inferInstanceAs (Decidable (_ ∧ _))
instance : Decidable (s.HeartbeatLapsed now) := inferInstanceAs (Decidable (_ ≤ _))
instance : Decidable (s.OperatorLapsed now) := inferInstanceAs (Decidable (_ ≤ _))
instance : Decidable (s.ReleaseReached now) := inferInstanceAs (Decidable (_ ≤ _))

/-- Motion is authorised. -/
def Moving : Prop := s.driving ∨ s.releasing

instance : Decidable s.Moving := inferInstanceAs (Decidable (_ ∨ _))

/-- Nothing of the state but the last action differs from `s`. -/
def idle : CalibrationProtocol F := { s with action := .none }

/-! ### Expiry -/

/-- The outcomes of `calibrationExpire`, in the order of its tests. -/
inductive Expired : CalibrationProtocol F × Bool → Prop
  | bound (h : s.BoundReached now) : Expired (calibrationStop s "trial_deadline", true)
  | heartbeat (hbound : ¬s.BoundReached now) (hsession : s.session) (h : s.HeartbeatLapsed now) :
    Expired (calibrationStop { s with session := false } "heartbeat_timeout", true)
  | operator (hbound : ¬s.BoundReached now) (hsession : s.session → ¬s.HeartbeatLapsed now)
      (hdriving : s.driving) (h : s.OperatorLapsed now) :
    Expired (calibrationStop s "operator_timeout", true)
  | release (hbound : ¬s.BoundReached now) (hsession : s.session → ¬s.HeartbeatLapsed now)
      (hdriving : s.driving → ¬s.OperatorLapsed now) (hreleasing : s.releasing)
      (h : s.ReleaseReached now) : Expired (calibrationStop s "release_timeout", true)
  | nothing (hbound : ¬s.BoundReached now) (hsession : s.session → ¬s.HeartbeatLapsed now)
      (hdriving : s.driving → ¬s.OperatorLapsed now)
      (hreleasing : s.releasing → ¬s.ReleaseReached now) : Expired (s, false)

theorem expired : Expired s now (calibrationExpire s now) := by
  rw [calibrationExpire]
  -- each test is made under the failure of the ones before it
  split_ifs with hbound hheartbeat hoperator hrelease
  · exact .bound hbound
  · exact .heartbeat hbound hheartbeat.1 hheartbeat.2
  all_goals have hsession : s.session → ¬s.HeartbeatLapsed now := fun h h' => hheartbeat ⟨h, h'⟩
  · exact .operator hbound hsession hoperator.1 hoperator.2
  all_goals have hdriving : s.driving → ¬s.OperatorLapsed now := fun h h' => hoperator ⟨h, h'⟩
  · exact .release hbound hsession hdriving hrelease.1 hrelease.2
  · exact .nothing hbound hsession hdriving fun h h' => hrelease ⟨h, h'⟩

/-! ### Lines -/

end CalibrationProtocol

/-- The request of a well-formed line. -/
def lineRequest (line : List Char) : Option Request :=
  if wellFormed line then some (request (arguments line)) else none

/-- The parameters an accepted `set` or `config` asks for. -/
def Request.parameters (p : CalibrationParameters F) : Request → Option (CalibrationParameters F)
  | .set values => setParameters p values
  | .config values => configParameters values
  | _ => none

namespace CalibrationProtocol

variable (s : CalibrationProtocol F) (now : UInt64)

/-- The outcomes of processing a line, given the brake flag of the expiry: the
state, the brake flag and the error. -/
inductive Handled (brake : Bool) :
    Option Request → CalibrationProtocol F × Bool × Option String → Prop
  | refused (r : Option Request) (error : String)
      (hr : r ≠ some .stop ∧ r ≠ some (.hello "2") ∧ r ≠ some .status) :
    Handled brake r (s, brake, some error)
  | rejectedDrive (vx wz error : String) (hsession : s.session) :
    Handled brake (some (.drive vx wz)) (calibrationStop s error, true, some error)
  | stop : Handled brake (some .stop) (calibrationStop s "requested", true, none)
  | hello : Handled brake (some (.hello "2"))
      (calibrationStop { s with session := true, heartbeatUs := now } "handshake", true, none)
  | status : Handled brake (some .status) (s, brake, none)
  | heartbeat (hsession : s.session) :
    Handled brake (some .heartbeat) ({ s with heartbeatUs := now }, brake, none)
  | calibrate (hsession : s.session) : Handled brake (some .calibrate)
      ({ calibrationStop s "calibrating" with fault := false, ready := false, action := .gyro },
        true, none)
  | drive {vx wz : String} {v w : F} (hsession : s.session) (hready : s.ready)
      (hfault : s.fault = false) (hv : value vx (-0.4) 0.4 = some v)
      (hw : value wz (-0.8) 0.8 = some w) : Handled brake (some (.drive vx wz))
      ({ s with vx := v, wz := w, operatorUs := now, driving := true, releasing := false
                action := .drive, stopReason := "driving" }, brake, none)
  | release (hsession : s.session) (hmoving : s.Moving) : Handled brake (some .release)
      ({ s with driving := false, releasing := true, vx := 0, wz := 0
                releaseUntilUs := now + calibrationReleaseUs
                stopReason := "ramping_to_zero", action := .release }, brake, none)
  | idleRelease (hsession : s.session) (hstill : ¬s.Moving) :
    Handled brake (some .release) (calibrationStop s "released", true, none)
  | configure {r : Request} {p : CalibrationParameters F} (hsession : s.session)
      (hrest : s.atRest) (hstill : ¬s.Moving) (hp : r.parameters s.parameters = some p) :
    Handled brake (some r) ({ s with parameters := p, action := .set }, brake, none)
  | measure (mode : Option String) (hsession : s.session) (hrest : s.atRest)
      (hstill : ¬s.Moving) : Handled brake (some (.measure mode))
      ({ s with measureBody := mode = none ∨ mode = some "1", action := .measure }, brake, none)
  | bound {ms : String} {v : F} (hsession : s.session) (hrest : s.atRest) (hstill : ¬s.Moving)
      (hv : value ms (100 : F) 30000 = some v) : Handled brake (some (.bound ms))
      ({ s with boundUntilUs := now + UInt64.ofNat (toInt (v * 1000)).toNat, action := .bound },
        brake, none)

omit [Double F] in
/-- The test `!at_rest || driving || releasing`. -/
theorem rest_and_still {s : CalibrationProtocol F}
    (h : ¬(!s.atRest || s.driving || s.releasing) = true) : s.atRest ∧ ¬s.Moving := by
  simp only [Bool.or_eq_true, Bool.not_eq_eq_eq_not, Bool.not_true, not_or,
    Bool.not_eq_false] at h
  obtain ⟨⟨hrest, hdriving⟩, hreleasing⟩ := h
  refine ⟨hrest, ?_⟩
  rintro (hd | hr)
  · exact hdriving hd
  · exact hreleasing hr

theorem handled_session (brake : Bool) (r : Request) (hs : s.session)
    (hr : some r ≠ some .stop ∧ some r ≠ some (.hello "2") ∧ some r ≠ some .status) :
    Handled s now brake (some r) (calibrationSession s brake now r) := by
  cases r with
  | heartbeat => exact .heartbeat hs
  | calibrate => exact .calibrate hs
  | drive vx wz =>
    rw [calibrationSession]
    split
    next v w hv hw =>
      split_ifs with hready
      · exact .rejectedDrive vx wz "not_ready" hs
      · simp only [Bool.or_eq_true, Bool.not_eq_eq_eq_not, Bool.not_true, not_or,
          Bool.not_eq_false, Bool.not_eq_true] at hready
        exact .drive hs hready.1 hready.2 hv hw
    next => exact .rejectedDrive vx wz "invalid_velocity" hs
  | release =>
    rw [calibrationSession]
    split_ifs with hm
    · exact .release hs (by simpa [Moving] using hm)
    · exact .idleRelease hs (by simpa [Moving] using hm)
  | set values =>
    rw [calibrationSession]
    split
    next => exact .refused _ _ hr
    next p hp =>
      split_ifs with hrest
      · exact .refused _ _ hr
      · exact .configure hs (rest_and_still hrest).1 (rest_and_still hrest).2 hp
  | config values =>
    rw [calibrationSession]
    split
    next => exact .refused _ _ hr
    next p hp =>
      split_ifs with hrest
      · exact .refused _ _ hr
      · exact .configure hs (rest_and_still hrest).1 (rest_and_still hrest).2 hp
  | measure mode =>
    rw [calibrationSession]
    split_ifs with hrest hmode
    · exact .refused _ _ hr
    · exact .refused _ _ hr
    · exact .measure mode hs (rest_and_still hrest).1 (rest_and_still hrest).2
  | bound ms =>
    rw [calibrationSession]
    split
    next => exact .refused _ _ hr
    next v hv =>
      split_ifs with hrest
      · exact .refused _ _ hr
      · exact .bound hs (rest_and_still hrest).1 (rest_and_still hrest).2 hv
  -- these have been served before the session is looked at
  | stop => exact .refused _ _ hr
  | hello version => exact .refused _ _ hr
  | status => exact .refused _ _ hr
  | unknown => exact .refused _ _ hr

theorem handled_dispatch (brake : Bool) (r : Request) :
    Handled s now brake (some r) (calibrationDispatch s brake now r) := by
  have in_session (hr : some r ≠ some .stop ∧ some r ≠ some (.hello "2") ∧
      some r ≠ some .status) : Handled s now brake (some r)
      (if !s.session then (s, brake, some "handshake_required")
        else calibrationSession s brake now r) := by
    split_ifs with hs
    · exact .refused _ _ hr
    · exact handled_session s now brake r (by simpa using hs) hr
  cases r with
  | stop => exact .stop
  | status => exact .status
  | hello version =>
    rw [calibrationDispatch]
    by_cases hversion : version = "2"
    · subst hversion
      exact .hello
    · rw [if_pos hversion]
      exact .refused _ _ (by simpa using hversion)
  | _ => exact in_session (by simp)

/-- The one way to authorise motion from rest. -/
theorem dispatch_drive {vx wz : String} {v w : F}
    (brake : Bool) (hsession : s.session) (hready : s.ready) (hfault : s.fault = false)
    (hv : value vx (-0.4) 0.4 = some v) (hw : value wz (-0.8) 0.8 = some w) :
    calibrationDispatch s brake now (.drive vx wz) =
      ({ s with vx := v, wz := w, operatorUs := now, driving := true, releasing := false
                action := .drive, stopReason := "driving" }, brake, none) := by
  simp [calibrationDispatch, calibrationSession, hsession, hready, hfault, hv, hw]

/-! ### Commands -/

/-- The outcome of a command: an expiry, then the line, then the reply. -/
inductive Commanded (line : List Char) : CalibrationProtocol F × Bool × Reply F → Prop
  | intro {expired : CalibrationProtocol F × Bool} {s' : CalibrationProtocol F} {brake : Bool}
      {error : Option String} {reply : Reply F} (hexpired : Expired s now expired)
      (handled : Handled expired.1.idle now expired.2 (lineRequest line) (s', brake, error))
      (hreply : reply.isOk = error.isNone)
      (hstatus : error = none → reply = .ok (lineId line) (calibrationStatus s' now)) :
    Commanded line (s', brake, reply)

theorem commanded (line : List Char) : Commanded s now line (calibrationCommand s line now) := by
  -- the reply is `ok` exactly when processing the line gave no error
  have of_handled (r : CalibrationProtocol F × Bool × Option String)
      (handled : Handled (calibrationExpire s now).1.idle now (calibrationExpire s now).2
        (lineRequest line) r) :
      Commanded s now line (r.1, r.2.1, calibrationReply r.1 line now r.2.2) := by
    obtain ⟨s', brake, error⟩ := r
    cases error with
    | none => exact .intro (expired s now) handled rfl fun _ => rfl
    | some error => exact .intro (expired s now) handled rfl nofun
  by_cases hline : wellFormed line
  · have handled := of_handled _ (by
      rw [lineRequest, if_pos hline]
      exact handled_dispatch (calibrationExpire s now).1.idle now (calibrationExpire s now).2 _)
    simpa [calibrationCommand, hline, idle] using handled
  · have handled := of_handled ((calibrationExpire s now).1.idle, (calibrationExpire s now).2,
      some "invalid_request") (.refused _ _ (by simp [lineRequest, hline]))
    simpa [calibrationCommand, hline, idle] using handled

end CalibrationProtocol
