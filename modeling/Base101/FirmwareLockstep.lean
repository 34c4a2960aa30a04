/-
The protocol and the drive agree (`calibration_firmware.c`).

Two state machines are updated independently: the protocol authorises motion,
the wheels enable it.  `Lockstep` says that they agree, and that the leases of
the protocol are those of its history; every phase of the loop keeps it, though
not every statement inside a phase does.

* `commandLine_lockstep` — a command line keeps the layers together, whatever it
  expires, starts or stops, and whether or not the hardware takes it;
* `firmware_lockstep` — the layers agree after every iteration, and every wheel
  update finds motion enabled under live leases only.
-/
import Base101.Firmware

open Double CalibrationProtocol

/-! ### The session lease in a run -/

/-- The requests that renew the session lease. -/
def Request.renewsLease : Request → Bool
  | .hello _ | .heartbeat => true
  | _ => false

/-- When the last accepted `hello` or `heartbeat` arrived. -/
def lastLease (history : List (Request × UInt64)) : Option UInt64 :=
  history.findSome? fun (r, t) => if r.renewsLease then some t else none

section Lease

variable {F : Type} [Double F]

/-- The line was accepted and renews the lease. -/
def RenewsLease (r : Option Request) (error : Option String) : Prop :=
  error = none ∧ ∃ q, r = some q ∧ q.renewsLease

/-- A session open after a line was open before it, with its lease, or the line has
just renewed the lease. -/
theorem CalibrationProtocol.Handled.lease {s : CalibrationProtocol F} {now : UInt64} {brake : Bool}
    {r : Option Request} {out : CalibrationProtocol F × Bool × Option String}
    (h : Handled s now brake r out) (hsession : out.1.session) :
    (s.session ∧ out.1.heartbeatUs = s.heartbeatUs ∧ ¬RenewsLease r out.2.2) ∨
      (out.1.heartbeatUs = now ∧ RenewsLease r out.2.2) := by
  cases h with
  | refused => exact .inl ⟨hsession, rfl, by simp [RenewsLease]⟩
  | hello => exact .inr ⟨rfl, rfl, _, rfl, rfl⟩
  | heartbeat => exact .inr ⟨rfl, rfl, _, rfl, rfl⟩
  | @configure r p _ _ _ hp =>
    refine .inl ⟨hsession, rfl, ?_⟩
    rintro ⟨-, q, hq, hrenews⟩
    obtain rfl := Option.some.inj hq
    -- only `set` and `config` have parameters
    cases r with
    | set | config => cases hrenews
    | _ => cases hp
  | _ =>
    refine .inl ⟨hsession, rfl, ?_⟩
    simp [RenewsLease, Request.renewsLease]

/-- Expiry leaves a session open only within its lease, or at a trial bound. -/
theorem CalibrationProtocol.Expired.lease {s : CalibrationProtocol F} {now : UInt64}
    {out : CalibrationProtocol F × Bool} (h : Expired s now out) (hsession : out.1.session) :
    s.session ∧ out.1.heartbeatUs = s.heartbeatUs := by
  cases h with
  | heartbeat => cases hsession
  | _ => exact ⟨hsession, rfl⟩

/-- The lease of an open session is the last one accepted. -/
def Leased (t : UInt64) (run : ProtocolRun F) : Prop :=
  run.state.session →
    lastLease run.history = some run.state.heartbeatUs ∧ run.state.heartbeatUs ≤ t

omit [Double F] in
/-- Later, with the same session, lease and history. -/
theorem Leased.congr {t t' : UInt64} {run run' : ProtocolRun F} (h : Leased t run) (ht : t ≤ t')
    (hsession : run'.state.session → run.state.session)
    (hlease : run'.state.heartbeatUs = run.state.heartbeatUs)
    (hhistory : run'.history = run.history) : Leased t' run' := by
  intro hs
  rw [hlease, hhistory]
  obtain ⟨hlast, hle⟩ := h (hsession hs)
  exact ⟨hlast, UInt64.le_trans hle ht⟩

theorem lastLease_record {history : List (Request × UInt64)} {now : UInt64} {r : Option Request} :
    lastLease (recordAccepted history now r) =
      if (r.map Request.renewsLease).getD false then some now else lastLease history := by
  cases r with
  | none => rfl
  | some r =>
    cases hr : r.renewsLease <;> simp [recordAccepted, lastLease, hr]

/-- The step lemma of the lease. -/
theorem Leased.step {t : UInt64} {run : ProtocolRun F} {e : ProtocolEvent} (h : Leased t run)
    (ha : (protocolMachine F).Admits t e) :
    Leased ((protocolMachine F).after t e) ((protocolMachine F).step run e) := by
  cases e with
  | command line now =>
    obtain ⟨expired, error, hexpired, handled, hacc⟩ := commanded_accepted run.state line now
    change Leased now ⟨_, recordAccepted run.history now (accepted run.state line now)⟩
    generalize calibrationCommand run.state line now = out at handled ⊢
    intro hs
    rw [hacc]
    rcases handled.lease hs with ⟨hs', hsame, hnot⟩ | ⟨hnow, rfl, q, hline, hq⟩
    · obtain ⟨hs'', hsame'⟩ := hexpired.lease hs'
      obtain ⟨hlast, hle⟩ := h hs''
      have hlease : out.1.heartbeatUs = run.state.heartbeatUs := hsame.trans hsame'
      have hkept : lastLease (recordAccepted run.history now
          (if error = none then lineRequest line else none)) = lastLease run.history := by
        -- a line that renews the lease would have moved `heartbeatUs`
        rw [lastLease_record, if_neg]
        intro hrenews
        apply hnot
        split_ifs at hrenews with herror
        · cases hline : lineRequest line with
          | none => simp [hline] at hrenews
          | some q => exact ⟨herror, q, rfl, by simpa [hline] using hrenews⟩
        · cases hrenews
      exact ⟨by rw [hkept, hlast, hlease], by rw [hlease]; exact UInt64.le_trans hle ha⟩
    · refine ⟨?_, by rw [hnow]; exact UInt64.le_refl now⟩
      rw [if_pos rfl, hline, lastLease_record, hnow]
      simp [hq]
  | expire now =>
    have hexpired := expired run.state now
    change Leased now { run with state := (calibrationExpire run.state now).1 }
    generalize calibrationExpire run.state now = out at hexpired ⊢
    intro hs
    obtain ⟨hs', hsame⟩ := hexpired.lease hs
    exact h.congr ha (fun _ => hs') hsame rfl hs
  | disconnect => exact h.congr (UInt64.le_refl t) nofun rfl rfl
  | stop reason => exact h.congr (UInt64.le_refl t) id rfl rfl
  | fault reason => exact h.congr (UInt64.le_refl t) id rfl rfl
  | observe ready atRest => exact h.congr (UInt64.le_refl t) id rfl rfl

end Lease

/-! ### What a command leaves to the hardware -/

namespace CalibrationProtocol

variable {F : Type} [Double F] {s : CalibrationProtocol F} {now : UInt64}

/-- The action asks the wheels to move. -/
def Starting (s : CalibrationProtocol F) : Prop := s.action = .drive ∨ s.action = .release

/-- The action is taken at rest only. -/
def Resting (s : CalibrationProtocol F) : Prop := s.action = .set ∨ s.action = .gyro

/-- An expiry stops and brakes, or does nothing. -/
theorem Expired.braked {out : CalibrationProtocol F × Bool} (h : Expired s now out) :
    (out.2 = true ∧ ¬out.1.Moving) ∨ (out.2 = false ∧ out.1 = s) := by
  cases h with
  | nothing => exact .inr ⟨rfl, rfl⟩
  | _ => exact .inl ⟨rfl, calibrationStop_not_moving _⟩

/-- A line starts motion, and says so in its action; or brakes; or leaves motion as
it is. -/
theorem Handled.outcome {brake : Bool} {r : Option Request}
    {out : CalibrationProtocol F × Bool × Option String} (h : Handled s now brake r out)
    (hidle : s.action = .none) :
    (out.1.Starting ∧ out.1.Moving ∧ r ≠ none ∧ r ≠ some .status) ∨
      (¬out.1.Starting ∧ (out.1.Resting → ¬out.1.Moving) ∧
        (out.2.1 = true ∧ ¬out.1.Moving ∨ out.2.1 = brake ∧ (out.1.Moving ↔ s.Moving))) := by
  have hstarting : ¬s.Starting := by simp [Starting, hidle]
  have hresting : ¬s.Resting := by simp [Resting, hidle]
  cases h with
  | refused | status | heartbeat =>
    exact .inr ⟨hstarting, fun h => absurd h hresting, .inr ⟨rfl, Iff.rfl⟩⟩
  | rejectedDrive | stop | hello | idleRelease =>
    exact .inr ⟨hstarting, fun h => absurd h hresting, .inl ⟨rfl, calibrationStop_not_moving _⟩⟩
  | calibrate =>
    have hstill : ¬(calibrationStop s "calibrating").Moving := calibrationStop_not_moving _
    exact .inr ⟨by simp [Starting], fun _ => hstill, .inl ⟨rfl, hstill⟩⟩
  | drive => exact .inl ⟨.inl rfl, .inl rfl, by simp, by simp⟩
  | release => exact .inl ⟨.inr rfl, .inr rfl, by simp, by simp⟩
  | configure _ _ hstill =>
    exact .inr ⟨by simp [Starting], fun _ => hstill, .inr ⟨rfl, Iff.rfl⟩⟩
  | measure | bound =>
    exact .inr ⟨by simp [Starting], by simp [Resting], .inr ⟨rfl, Iff.rfl⟩⟩

/-- A command as the hardware sees it. -/
inductive Outcome (s : CalibrationProtocol F) (line : List Char) :
    CalibrationProtocol F → Bool → Prop
  | starts {s' : CalibrationProtocol F} {brake : Bool} (hstarting : s'.Starting)
      (hmoving : s'.Moving) (hline : lineRequest line ≠ none ∧ lineRequest line ≠ some .status) :
    Outcome s line s' brake
  | stops {s' : CalibrationProtocol F} (hquiet : ¬s'.Starting) (hstill : ¬s'.Moving) :
    Outcome s line s' true
  | keeps {s' : CalibrationProtocol F} (hquiet : ¬s'.Starting)
      (hresting : s'.Resting → ¬s'.Moving) (hsame : s'.Moving ↔ s.Moving) :
    Outcome s line s' false

theorem command_outcome (s : CalibrationProtocol F) (line : List Char) (now : UInt64) :
    Outcome s line (calibrationCommand s line now).1 (calibrationCommand s line now).2.1 := by
  have hcommanded := commanded s now line
  generalize calibrationCommand s line now = out at hcommanded ⊢
  obtain ⟨hexpired, handled, -, -⟩ := hcommanded
  rcases handled.outcome rfl with ⟨hstarting, hmoving, hline⟩ | ⟨hquiet, hresting, hmotion⟩
  · exact .starts hstarting hmoving hline
  · rcases hmotion with ⟨hbrake, hstill⟩ | ⟨hbrake, hsame⟩
    · dsimp only at hbrake ⊢
      rw [hbrake]
      exact .stops hquiet hstill
    · dsimp only at hbrake ⊢
      rw [hbrake]
      -- the line did nothing: what counts is the expiry before it
      rcases hexpired.braked with ⟨hb, hstill⟩ | ⟨hb, hs⟩
      · rw [hb]
        exact .stops hquiet fun hm => hstill (hsame.mp hm)
      · rw [hb]
        exact .keeps hquiet hresting (by rw [hsame, hs]; rfl)

end CalibrationProtocol

/-! ### Agreement -/

section Agreement

variable {F : Type} [Double F] {env : FirmwareBus F} {fw fw' : Firmware F}

/-- The protocol's history is that of its leases, at readings already taken. -/
def Timed (env : FirmwareBus F) (fw : Firmware F) : Prop :=
  ∃ t, Tracked t fw.protocol ∧ Leased t fw.protocol ∧ ∀ k, fw.wheels.ticks ≤ k → t ≤ env.clock k

theorem Timed.congr (h : Timed env fw) (hprotocol : fw'.protocol = fw.protocol)
    (hticks : fw.wheels.ticks ≤ fw'.wheels.ticks) : Timed env fw' := by
  obtain ⟨t, htracked, hleased, hlate⟩ := h
  exact ⟨t, hprotocol ▸ htracked, hprotocol ▸ hleased, fun k hk => hlate k (hticks.trans hk)⟩

/-- A call without a reading. -/
theorem Timed.call {e : ProtocolEvent} (h : Timed env fw)
    (htime : (protocolMachine F).time e = none) : Timed env (fw.call e) := by
  obtain ⟨t, htracked, hleased, hlate⟩ := h
  have hafter : (protocolMachine F).after t e = t := by rw [Machine.after, htime]; rfl
  have ha : (protocolMachine F).Admits t e := by rw [Machine.Admits, hafter]; exact UInt64.le_refl t
  exact ⟨t, hafter ▸ (htracked.step ha).1, hafter ▸ hleased.step ha, hlate⟩

/-- A call with the next reading. -/
theorem Timed.callNow {e : ProtocolEvent} (h : Timed env fw)
    (htime : (protocolMachine F).time e = some (env.clock fw.wheels.ticks)) :
    Timed env ({ fw with wheels := (readClock env.toBus fw.wheels).2 }.call e) := by
  obtain ⟨t, htracked, hleased, hlate⟩ := h
  have hafter : (protocolMachine F).after t e = env.clock fw.wheels.ticks := by
    rw [Machine.after, htime]
    rfl
  have ha : (protocolMachine F).Admits t e := by
    rw [Machine.Admits, hafter]
    exact hlate _ (Nat.le_refl _)
  exact ⟨_, hafter ▸ (htracked.step ha).1, hafter ▸ hleased.step ha,
    fun k hk => env.clock_mono _ _ (Nat.le_of_succ_le hk)⟩

/-- Motion is enabled exactly when the protocol authorises it. -/
structure Lockstep (env : FirmwareBus F) (fw : Firmware F) : Prop where
  motion : fw.wheels.motionEnabled ↔ fw.state.Moving
  timed : Timed env fw

theorem Lockstep.congr (h : Lockstep env fw) (hprotocol : fw'.protocol = fw.protocol)
    (hmotion : fw'.wheels.motionEnabled = fw.wheels.motionEnabled)
    (hticks : fw.wheels.ticks ≤ fw'.wheels.ticks) : Lockstep env fw' where
  motion := by
    rw [hmotion, Firmware.state, hprotocol]
    exact h.motion
  timed := h.timed.congr hprotocol hticks

theorem Lockstep.undisturbed (h : Lockstep env fw) (hfw : Undisturbed fw fw') :
    Lockstep env fw' :=
  h.congr hfw.protocol hfw.wheels.motion hfw.wheels.ticks

/-- A stopped protocol and braked wheels. -/
theorem Lockstep.halted (h : Timed env fw) (hstill : ¬fw.state.Moving) :
    Lockstep env (firmwareBrakeAll env fw) where
  motion := by
    have hmotion : (firmwareBrakeAll env fw).wheels.motionEnabled = false :=
      brakeAll_motionEnabled fw.wheels
    rw [hmotion]
    exact ⟨nofun, fun hm => absurd hm hstill⟩
  timed := h.congr rfl (brakeAll_extends env.toBus fw.wheels).ticks

/-! ### The phases around the input -/

theorem observeState_lockstep (h : Lockstep env fw) : Lockstep env (observeState env fw) where
  motion := h.motion
  timed := Timed.call (h.timed.congr rfl (Nat.le_succ _)) rfl

theorem watchConnection_lockstep (h : Lockstep env fw) :
    Lockstep env (watchConnection env fw) := by
  rw [watchConnection]
  dsimp only
  split
  · have hdisconnected : Lockstep env (firmwareBrakeAll env (fw.call .disconnect)) :=
      .halted (h.timed.call rfl) (calibrationStop_not_moving _)
    exact hdisconnected.congr rfl rfl (Nat.le_refl _)
  · exact h.congr rfl rfl (Nat.le_refl _)

/-- What an expiry that stopped nothing has checked. -/
structure LeasesLive (fw : Firmware F) (now : UInt64) : Prop where
  session : fw.state.session
  lease : ∃ t, lastLease fw.protocol.history = some t ∧ t ≤ now ∧
    now - t < calibrationHeartbeatUs
  motion : fw.state.driving ∧ (∃ t, lastDrive fw.protocol.history = some t ∧ t ≤ now ∧
      now - t < calibrationOperatorUs) ∨
    fw.state.releasing ∧ now < fw.state.releaseUntilUs
  bound : fw.state.boundUntilUs ≠ 0 → now < fw.state.boundUntilUs

/-- An expiry keeps the layers together, and finds motion authorised under live
leases only. -/
theorem expireAndBrake_lockstep (h : Lockstep env fw) :
    Lockstep env (expireAndBrake env fw) ∧
      ((expireAndBrake env fw).wheels.motionEnabled →
        LeasesLive (expireAndBrake env fw) (env.clock fw.wheels.ticks)) := by
  have htimed := h.timed.callNow (e := .expire (env.clock fw.wheels.ticks)) rfl
  have hexpired := expired fw.state (env.clock fw.wheels.ticks)
  obtain ⟨t, htracked, hleased, hlate⟩ := h.timed
  have hnow := hlate _ (Nat.le_refl _)
  set called : Firmware F := { fw with wheels := (readClock env.toBus fw.wheels).2 }.call
    (.expire (env.clock fw.wheels.ticks)) with hcalled
  have hstate : called.state = (calibrationExpire fw.state (env.clock fw.wheels.ticks)).1 := rfl
  have hexpire : expireAndBrake env fw =
      if (calibrationExpire fw.state (env.clock fw.wheels.ticks)).2 then
        firmwareBrakeAll env called else called := rfl
  rw [hexpire]
  generalize calibrationExpire fw.state (env.clock fw.wheels.ticks) = out at hexpired hstate ⊢
  rcases hexpired.braked with ⟨hbrake, hstill⟩ | ⟨hbrake, hsame⟩
  · -- a deadline has stopped the protocol: no motion is left to account for
    rw [if_pos hbrake]
    refine ⟨.halted htimed (by rw [hstate]; exact hstill), ?_⟩
    intro hm
    have hmotion : (firmwareBrakeAll env called).wheels.motionEnabled = false :=
      brakeAll_motionEnabled called.wheels
    rw [hmotion] at hm
    cases hm
  · -- nothing has expired, so every deadline the motion depends on is ahead
    rw [hsame] at hstate
    have hmotion : called.wheels.motionEnabled ↔ called.state.Moving := by
      rw [hstate]
      exact h.motion
    rw [if_neg (by simp [hbrake])]
    refine ⟨⟨hmotion, htimed⟩, ?_⟩
    intro hm
    have hmoving : fw.state.Moving := by
      rw [← hstate]
      exact hmotion.mp hm
    have hsession : fw.state.session := htracked.sound.session hmoving
    cases hexpired with
    | nothing hbound hheartbeat hoperator hrelease =>
      obtain ⟨hlast, hle⟩ := hleased hsession
      refine ⟨by rw [hstate]; exact hsession, ⟨_, hlast, UInt64.le_trans hle hnow, ?_⟩, ?_, ?_⟩
      · exact UInt64.not_le.mp (hheartbeat hsession)
      · rw [hstate]
        rcases hmoving with hdriving | hreleasing
        · obtain ⟨hdrive, hdriveLe⟩ := htracked.drive hdriving
          exact .inl ⟨hdriving, _, hdrive, UInt64.le_trans hdriveLe hnow,
            UInt64.not_le.mp (hoperator hdriving)⟩
        · exact .inr ⟨hreleasing, UInt64.not_le.mp (hrelease hreleasing)⟩
      · rw [hstate]
        exact fun hset => UInt64.not_le.mp fun hreached => hbound ⟨hset, hreached⟩
    | _ => cases hbrake

/-! ### Command lines -/

/-- After the protocol's part of a command: the layers agree, or motion is authorised
and waits for the wheels. -/
structure Commandable (env : FirmwareBus F) (fw : Firmware F) : Prop where
  timed : Timed env fw
  starting : fw.state.Starting → fw.state.Moving
  settled : ¬fw.state.Starting → (fw.wheels.motionEnabled ↔ fw.state.Moving)
  resting : fw.state.Resting → ¬fw.state.Moving

theorem commandAndBrake_commandable (h : Lockstep env fw) (line : List Char) :
    Commandable env (commandAndBrake env fw line).1 ∧
      (lineRequest line = none ∨ lineRequest line = some .status →
        Lockstep env (commandAndBrake env fw line).1) := by
  have htimed := h.timed.callNow (e := .command line (env.clock fw.wheels.ticks)) rfl
  have houtcome := command_outcome fw.state line (env.clock fw.wheels.ticks)
  set called : Firmware F := { fw with wheels := (readClock env.toBus fw.wheels).2 }.call
    (.command line (env.clock fw.wheels.ticks)) with hcalled
  have hstate : called.state = (calibrationCommand fw.state line (env.clock fw.wheels.ticks)).1 :=
    rfl
  have hmotion : called.wheels.motionEnabled ↔ fw.state.Moving := h.motion
  have hcommand : (commandAndBrake env fw line).1 =
      if (calibrationCommand fw.state line (env.clock fw.wheels.ticks)).2.1 then
        firmwareBrakeAll env called else called := rfl
  rw [hcommand]
  generalize calibrationCommand fw.state line (env.clock fw.wheels.ticks) = out at houtcome hstate ⊢
  have hbraked : Timed env (firmwareBrakeAll env called) :=
    htimed.congr rfl (brakeAll_extends env.toBus called.wheels).ticks
  generalize hbrake : out.2.1 = brake at houtcome ⊢
  rw [← hstate] at houtcome
  cases houtcome with
  | starts hstarting hmoving hline =>
    -- the action is known; a brake of the expiry comes before it
    have hresting : ¬called.state.Resting := by
      rcases hstarting with h | h <;> simp [Resting, h]
    constructor
    · cases brake with
      | true => exact ⟨hbraked, fun _ => hmoving, fun hnot => absurd hstarting hnot,
          fun h => absurd h hresting⟩
      | false => exact ⟨htimed, fun _ => hmoving, fun hnot => absurd hstarting hnot,
          fun h => absurd h hresting⟩
    · rintro (hnone | hstatus)
      · exact absurd hnone hline.1
      · exact absurd hstatus hline.2
  | stops hquiet hstill =>
    have hhalted : Lockstep env (firmwareBrakeAll env called) := .halted htimed hstill
    exact ⟨⟨hbraked, fun h => absurd h hquiet, fun _ => hhalted.motion, fun _ => hstill⟩,
      fun _ => hhalted⟩
  | keeps hquiet hresting hsame =>
    have hagree : called.wheels.motionEnabled ↔ called.state.Moving := hmotion.trans hsame.symm
    exact ⟨⟨htimed, fun h => absurd h hquiet, fun _ => hagree, hresting⟩,
      fun _ => ⟨hagree, htimed⟩⟩

/-- The parameters do not matter to the history. -/
theorem Timed.setParameters (h : Timed env fw) (p : CalibrationParameters F) :
    Timed env (fw.setParameters p) := by
  obtain ⟨t, htracked, hleased, hlate⟩ := h
  exact ⟨t, ⟨htracked.sound.congr rfl rfl rfl rfl rfl rfl, htracked.drive⟩, hleased, hlate⟩

/-- Offering parameters to the controller enables no motion. -/
theorem applyParameters_lockstep (h : Commandable env fw) (hset : fw.state.action = .set)
    (previous : CalibrationParameters F) :
    Lockstep env (applyParameters env fw previous).1 := by
  have hstill := h.resting (.inl hset)
  have hquiet : ¬fw.state.Starting := by
    rintro (hstarting | hstarting) <;> rw [hset] at hstarting <;> cases hstarting
  have hmotion : fw.wheels.motionEnabled = false := by
    by_contra hm
    exact hstill ((h.settled hquiet).mp (by simpa using hm))
  rw [applyParameters]
  dsimp only
  -- refused, the wheels read the clock; taken, they stand still afterwards too
  rcases wheelsConfigureCalibration_cases env.toBus fw.wheels fw.state.parameters with
    ⟨-, hrefused⟩ | ⟨-, htaken, hconfigured⟩
  · rw [hrefused]
    have hclock : Timed env
        { fw with wheels := { fw.wheels with ticks := fw.wheels.ticks + 1 } } :=
      h.timed.congr rfl (Nat.le_succ _)
    refine ⟨⟨?_, ?_⟩, hclock.setParameters previous⟩
    · intro hm
      change fw.wheels.motionEnabled = true at hm
      rw [hmotion] at hm
      cases hm
    · intro hm
      exact absurd hm hstill
  · rw [htaken]
    generalize (wheelsConfigureCalibration env.toBus fw.wheels fw.state.parameters).1 = w
      at hconfigured ⊢
    have htimed : Timed env { fw with wheels := w } := h.timed.congr rfl hconfigured.ticks
    have hagree : w.motionEnabled ↔ fw.state.Moving := by
      rw [hconfigured.still]
      exact ⟨nofun, fun hm => absurd hm hstill⟩
    rw [if_neg (by simp)]
    split
    · exact ⟨hagree, htimed.congr rfl (Nat.le_refl _)⟩
    · exact ⟨hagree, htimed⟩

/-- An action the hardware takes brings the layers together; one it does not take
leaves the history as it was. -/
theorem performAction_lockstep (h : Commandable env fw) (previous : CalibrationParameters F) :
    Timed env (performAction env fw previous).1 ∧
      ((performAction env fw previous).2 = true →
        Lockstep env (performAction env fw previous).1) := by
  have hquiet (haction : fw.state.action ≠ .drive ∧ fw.state.action ≠ .release) :
      Lockstep env fw :=
    ⟨h.settled fun hstarting => hstarting.elim haction.1 haction.2, h.timed⟩
  have hvelocity : let out := wheelsSetVelocity env.toBus fw.wheels fw.state.vx fw.state.wz
      fw.state.Starting → Timed env { fw with wheels := out.1 } ∧
        (out.2 = true → Lockstep env { fw with wheels := out.1 }) := by
    intro out hstarting
    have hmoving := h.starting hstarting
    rcases wheelsSetVelocity_cases env.toBus fw.wheels fw.state.vx fw.state.wz with
      hrefused | ⟨-, -, left, right, hstart⟩
    · change out = _ at hrefused
      rw [hrefused]
      exact ⟨h.timed.congr rfl (Nat.le_succ _), nofun⟩
    · change out = _ at hstart
      rw [hstart]
      have htimed : Timed env { fw with
          wheels := startMotion { fw.wheels with ticks := fw.wheels.ticks + 1 } left right } :=
        h.timed.congr rfl (Nat.le_succ _)
      exact ⟨htimed, fun _ => ⟨⟨fun _ => hmoving, fun _ => rfl⟩, htimed⟩⟩
  rw [performAction]
  cases haction : fw.state.action with
  | none => exact ⟨h.timed, fun _ => hquiet (by simp [haction])⟩
  | bound => exact ⟨h.timed, fun _ => hquiet (by simp [haction])⟩
  | measure =>
    refine ⟨h.timed.congr rfl (Nat.le_succ _), ?_⟩
    intro _
    exact (hquiet (by simp [haction])).congr rfl rfl (Nat.le_succ _)
  | gyro =>
    have hstill := h.resting (.inr haction)
    have htimed : Timed env
        { fw with wheels := wheelsRestartGyroCalibration env.toBus fw.wheels } :=
      h.timed.congr rfl (restart_ticks fw.wheels)
    refine ⟨htimed, fun _ => ⟨?_, htimed⟩⟩
    rw [restart_motionEnabled]
    exact ⟨nofun, fun hm => absurd hm hstill⟩
  | set => exact ⟨(applyParameters_lockstep h haction previous).timed,
      fun _ => applyParameters_lockstep h haction previous⟩
  | drive => exact hvelocity (.inl haction)
  | release => exact hvelocity (.inr haction)

/-- A command line keeps the layers together: what the hardware does not take is a
fault. -/
theorem commandLine_lockstep (h : Lockstep env fw) (line : List Char) :
    Lockstep env (commandLine env fw line).1 := by
  have hcommand := (commandAndBrake_commandable (observeState_lockstep h) line).1
  have hact := performAction_lockstep hcommand (observeState env fw).state.parameters
  unfold commandLine
  dsimp only
  generalize performAction env (commandAndBrake env (observeState env fw) line).1
    (observeState env fw).state.parameters = acted at hact ⊢
  obtain ⟨htimed, happlied⟩ := hact
  split
  next hrejected => exact .halted (htimed.call rfl) (calibrationFault_not_moving _)
  next happlied' => exact happlied (by simpa using happlied')

theorem handleLine_lockstep (h : Lockstep env fw) : Lockstep env (handleLine env fw).1 := by
  rw [handleLine]
  split
  · exact .halted (h.timed.call rfl) (calibrationStop_not_moving _)
  · have hline := commandLine_lockstep h fw.line
    dsimp only
    rw [confirmStatus]
    split
    · exact (commandAndBrake_commandable (observeState_lockstep hline) _).2
        (lineRequest_statusLine _)
    · exact hline

theorem readChar_lockstep (h : Lockstep env fw) (ch : UInt8) :
    Lockstep env (readChar env fw ch) := by
  have hsame {fw' : Firmware F} (hprotocol : fw'.protocol = fw.protocol)
      (hwheels : fw'.wheels = fw.wheels) : Lockstep env fw' :=
    h.congr hprotocol (by rw [hwheels]) (by rw [hwheels])
  rw [readChar]
  split
  · split
    · exact (handleLine_lockstep h).congr rfl rfl (Nat.le_succ _)
    · exact hsame rfl rfl
  · split
    · exact hsame rfl rfl
    · split
      · exact hsame rfl rfl
      · exact hsame rfl rfl

theorem readInput_lockstep (budget : ℕ) (h : Lockstep env fw) :
    Lockstep env (readInput env budget fw) := by
  induction budget generalizing fw with
  | zero => exact h
  | succ budget ih =>
    rw [readInput]
    have hpolled : Lockstep env { fw with polls := fw.polls + 1 } :=
      h.congr rfl rfl (Nat.le_refl _)
    split
    · exact hpolled
    · exact ih (readChar_lockstep hpolled _)

/-! ### Iterations -/

theorem beginIteration_lockstep (h : Lockstep env fw) : Lockstep env (beginIteration env fw) := by
  have hprobed := h.undisturbed (probeOffline_undisturbed env fw)
  have hsampled := hprobed.undisturbed (firmwareSampleImu_undisturbed env _)
  exact (expireAndBrake_lockstep (watchConnection_lockstep hsampled)).1

/-- After an update the layers may differ in one way: the wheels have stopped. -/
theorem compareLayers_lockstep (htimed : Timed env fw)
    (hmotion : fw.wheels.motionEnabled → fw.state.Moving) :
    Lockstep env (compareLayers env fw) := by
  have hclock : Timed env { fw with wheels := { fw.wheels with ticks := fw.wheels.ticks + 1 } } :=
    htimed.congr rfl (Nat.le_succ _)
  set read : Firmware F :=
    { fw with wheels := { fw.wheels with ticks := fw.wheels.ticks + 1 } } with hread
  have hquiet {fw : Firmware F} (h : Lockstep env fw) (b : Prop) [Decidable b] :
      Lockstep env
        (if b then { fw with metrics := { fw.metrics with active := false } } else fw) := by
    split
    · exact h.congr rfl rfl (Nat.le_refl _)
    · exact h
  rw [compareLayers]
  dsimp only
  refine hquiet ?_ _
  split
  · exact .halted (hclock.call rfl) (calibrationFault_not_moving _)
  next hagree =>
    split
    · exact .halted (hclock.call rfl) (calibrationStop_not_moving _)
    · refine ⟨⟨hmotion, ?_⟩, hclock⟩
      intro hm
      by_contra hstopped
      apply hagree
      rw [Bool.and_eq_true, Bool.or_eq_true, Bool.not_eq_true']
      exact ⟨hm, Bool.eq_false_of_not_eq_true hstopped⟩

theorem endIteration_lockstep (h : Lockstep env fw) : Lockstep env (endIteration env fw) := by
  have hupdated : Lockstep env
      (compareLayers env { fw with wheels := wheelsUpdate env.toBus fw.wheels }) := by
    refine compareLayers_lockstep ?_ ?_
    · exact h.timed.congr rfl (wheelsUpdate_ticks_parameters env.toBus fw.wheels).1
    · -- an update never enables motion
      intro hm
      apply h.motion.mp
      rcases wheelsUpdate_cases env.toBus fw.wheels with
        ⟨-, hsame⟩ | ⟨hmoving, -⟩ | ⟨hmoving, -⟩
      · exact hsame ▸ hm
      · exact hmoving
      · exact hmoving
  have hobserved := observeState_lockstep hupdated
  have hmeasured := hobserved.undisturbed (firmwareOdometry_undisturbed env _)
  exact hmeasured.congr rfl rfl (Nat.le_refl _)

theorem firmwareBoot_lockstep (env : FirmwareBus F) : Lockstep env (firmwareBoot env) := by
  have htracked : Timed env (firmwareBoot env) :=
    ⟨0, .boot _, nofun, fun _ _ => UInt64.zero_le⟩
  have hmotion : (firmwareBoot env).wheels.motionEnabled = false := by
    let booted : Wheels F := wheelsBoot env.toBus .calibration none
    have hstill : booted.motionEnabled = false := brakeAll_motionEnabled _
    show (wheelsConfigureCalibration env.toBus booted (startupParameters booted)).1.motionEnabled =
      false
    rcases wheelsConfigureCalibration_cases env.toBus booted (startupParameters booted) with
      ⟨-, hrefused⟩ | ⟨-, -, hconfigured⟩
    · rw [hrefused]
      exact hstill
    · exact hconfigured.still
  refine ⟨?_, htracked⟩
  rw [hmotion]
  exact ⟨nofun, fun hm => hm.elim nofun nofun⟩

theorem firmwareLoop_lockstep (h : Lockstep env fw) : Lockstep env (firmwareLoop env fw) := by
  have hread := readInput_lockstep inputBudget (beginIteration_lockstep h)
  exact endIteration_lockstep (expireAndBrake_lockstep hread).1

theorem firmwareRun_lockstep (env : FirmwareBus F) (n : ℕ) : Lockstep env (firmwareRun env n) := by
  induction n with
  | zero => exact firmwareBoot_lockstep env
  | succ n ih =>
    rw [firmwareRun_succ]
    exact firmwareLoop_lockstep ih

/-- The state of iteration `n` just before its second expiry. -/
def beforeUpdate (env : FirmwareBus F) (n : ℕ) : Firmware F :=
  readInput env inputBudget (beginIteration env (firmwareRun env n))

/-- Over every run: after each iteration motion is enabled exactly when the protocol
drives or releases; and each wheel update that finds motion enabled follows an
expiry that found the session open and every lease and bound live. -/
theorem firmware_lockstep (env : FirmwareBus F) (n : ℕ) :
    ((firmwareRun env n).wheels.motionEnabled ↔ (firmwareRun env n).state.Moving) ∧
      let updating := expireAndBrake env (beforeUpdate env n)
      let now := env.clock (beforeUpdate env n).wheels.ticks
      firmwareRun env (n + 1) = endIteration env updating ∧
        (updating.wheels.motionEnabled → LeasesLive updating now) := by
  refine ⟨(firmwareRun_lockstep env n).motion, ?_, ?_⟩
  · rw [firmwareRun_succ]
    rfl
  · have hread := readInput_lockstep inputBudget
      (beginIteration_lockstep (firmwareRun_lockstep env n))
    exact (expireAndBrake_lockstep hread).2

end Agreement
