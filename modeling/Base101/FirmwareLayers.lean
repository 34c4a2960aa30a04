/-
One set of parameters in two layers (`calibration_firmware.c`).

The protocol keeps the parameters it reports, the wheels those in force.  A line
either leaves both alone or changes both; everything else in the loop is
`Carried`, so a property of the two layers holds of every run once it holds at
boot and is kept by the answer to a line.

* `handleLine_layers` — a line changes both layers or neither;
* `firmware_invariant` — the induction over runs.
-/
import Base101.Firmware

open Double CalibrationProtocol

/-! ### Layers -/

def ProtocolEvent.isCommand : ProtocolEvent → Bool
  | .command _ _ => true
  | _ => false

section Layers

variable {F : Type} {fw fw' fw'' : Firmware F}

/-- Neither layer has changed its parameters. -/
structure SameLayers (fw fw' : Firmware F) : Prop where
  protocol : fw'.state.parameters = fw.state.parameters
  wheels : SameParameters fw.wheels fw'.wheels

/-- Neither layer has changed, nothing was sent, and the history has only grown. -/
structure Carried (fw fw' : Firmware F) : Prop extends SameLayers fw fw' where
  outbox : fw'.outbox = fw.outbox
  history : fw.protocol.history <:+ fw'.protocol.history

theorem SameLayers.trans (h : SameLayers fw fw') (h' : SameLayers fw' fw'') :
    SameLayers fw fw'' :=
  ⟨h'.protocol.trans h.protocol, h.wheels.trans h'.wheels⟩

theorem Carried.trans (h : Carried fw fw') (h' : Carried fw' fw'') : Carried fw fw'' :=
  ⟨h.toSameLayers.trans h'.toSameLayers, h'.outbox.trans h.outbox, h.history.trans h'.history⟩

/-- The protocol, the wheels and what was sent are the same. -/
theorem Carried.of_eq (hprotocol : fw'.protocol = fw.protocol) (hwheels : fw'.wheels = fw.wheels)
    (houtbox : fw'.outbox = fw.outbox) : Carried fw fw' := by
  refine ⟨⟨?_, ?_⟩, houtbox, ?_⟩
  · rw [Firmware.state, hprotocol, Firmware.state]
  · rw [hwheels]
    exact ⟨rfl, rfl, rfl⟩
  · rw [hprotocol]

theorem Undisturbed.carried (h : Undisturbed fw fw') : Carried fw fw' := by
  refine ⟨⟨?_, h.wheels.parameters⟩, h.outbox, ?_⟩
  · rw [Firmware.state, h.protocol, Firmware.state]
  · rw [h.protocol]

variable [Double F] (env : FirmwareBus F)

theorem brakeAll_carried (fw : Firmware F) : Carried fw (firmwareBrakeAll env fw) :=
  ⟨⟨rfl, (brakeAll_extends env.toBus fw.wheels).parameters⟩, rfl, List.suffix_refl _⟩

omit [Double F] in
theorem readClock_carried (fw : Firmware F) :
    Carried fw { fw with wheels := (readClock env.toBus fw.wheels).2 } :=
  ⟨⟨rfl, ⟨rfl, rfl, rfl⟩⟩, rfl, List.suffix_refl _⟩

/-- Only a command changes the parameters of the protocol. -/
theorem call_carried (fw : Firmware F) {e : ProtocolEvent} (he : e.isCommand = false) :
    Carried fw (fw.call e) := by
  have hsame (p : ProtocolRun F) (hparameters : p.state.parameters = fw.state.parameters)
      (hhistory : p.history = fw.protocol.history) : Carried fw { fw with protocol := p } :=
    ⟨⟨hparameters, ⟨rfl, rfl, rfl⟩⟩, rfl, by rw [hhistory]⟩
  cases e with
  | command line now => cases he
  | expire now =>
    refine hsame _ ?_ rfl
    show (calibrationExpire fw.state now).1.parameters = fw.state.parameters
    exact (expired fw.state now).parameters
  | _ => exact hsame _ rfl rfl

theorem observeState_carried (fw : Firmware F) : Carried fw (observeState env fw) :=
  (readClock_carried env fw).trans (call_carried _ rfl)

theorem expireAndBrake_carried (fw : Firmware F) : Carried fw (expireAndBrake env fw) := by
  have hcalled := (readClock_carried env fw).trans
    (call_carried { fw with wheels := (readClock env.toBus fw.wheels).2 }
      (e := .expire (readClock env.toBus fw.wheels).1) rfl)
  rw [expireAndBrake]
  dsimp only
  split
  · exact hcalled.trans (brakeAll_carried env _)
  · exact hcalled

theorem watchConnection_carried (fw : Firmware F) : Carried fw (watchConnection env fw) := by
  rw [watchConnection]
  dsimp only
  split
  · have hdisconnected : Carried fw (firmwareBrakeAll env (fw.call .disconnect)) :=
      (call_carried fw rfl).trans (brakeAll_carried env _)
    exact hdisconnected.trans (.of_eq rfl rfl rfl)
  · exact .of_eq rfl rfl rfl

theorem beginIteration_carried (fw : Firmware F) : Carried fw (beginIteration env fw) := by
  have hprobed := (probeOffline_undisturbed env fw).carried
  have hsampled := hprobed.trans (firmwareSampleImu_undisturbed env _).carried
  exact (hsampled.trans (watchConnection_carried env _)).trans (expireAndBrake_carried env _)

theorem compareLayers_carried (fw : Firmware F) : Carried fw (compareLayers env fw) := by
  have hquiet {fw' : Firmware F} (h : Carried fw fw') (b : Prop) [Decidable b] :
      Carried fw
        (if b then { fw' with metrics := { fw'.metrics with active := false } } else fw') := by
    split
    · exact h.trans (.of_eq rfl rfl rfl)
    · exact h
  have hread := readClock_carried env fw
  rw [compareLayers]
  dsimp only
  -- a fault, the end of a release, or neither
  refine hquiet ?_ _
  split
  · exact (hread.trans (call_carried _ rfl)).trans (brakeAll_carried env _)
  · split
    · exact (hread.trans (call_carried _ rfl)).trans (brakeAll_carried env _)
    · exact hread

theorem endIteration_carried (fw : Firmware F) : Carried fw (endIteration env fw) := by
  have hupdated : Carried fw { fw with wheels := wheelsUpdate env.toBus fw.wheels } :=
    ⟨⟨rfl, (wheelsUpdate_ticks_parameters env.toBus fw.wheels).2⟩, rfl, List.suffix_refl _⟩
  have hcompared := hupdated.trans (compareLayers_carried env _)
  have hobserved := hcompared.trans (observeState_carried env _)
  have hmeasured := hobserved.trans (firmwareOdometry_undisturbed env _).carried
  rw [endIteration]
  generalize firmwareOdometry env _ = measured at hmeasured ⊢
  exact hmeasured.trans (.of_eq rfl rfl rfl)

end Layers

/-! ### What a command asks for -/

namespace CalibrationProtocol

variable {F : Type} [Double F] {s : CalibrationProtocol F} {now : UInt64}

/-- A line leaves the parameters alone, or takes the ones it asks for and says so in
its action. -/
theorem Handled.parameters {brake : Bool} {r : Option Request}
    {out : CalibrationProtocol F × Bool × Option String} (h : Handled s now brake r out)
    (hidle : s.action = .none) :
    (out.1.parameters = s.parameters ∧ out.1.action ≠ .set) ∨
      (∃ q p, r = some q ∧ q.parameters s.parameters = some p ∧ out.1.parameters = p ∧
        out.1.action = .set ∧ out.2.2 = none) := by
  have hset : s.action ≠ .set := by simp [hidle]
  cases h with
  | @configure q p _ _ _ hp => exact .inr ⟨q, p, rfl, hp, rfl, rfl, rfl⟩
  | refused | rejectedDrive | stop | hello | status | heartbeat | idleRelease =>
    exact .inl ⟨rfl, hset⟩
  | calibrate | drive | release | measure | bound => exact .inl ⟨rfl, nofun⟩

/-- The protocol's part of a `set` or `config` it accepts. -/
structure Accepts (s : CalibrationProtocol F) (line : List Char) (now : UInt64) (r : Request)
    (p : CalibrationParameters F) : Prop where
  accepted : accepted s line now = some r
  asked : r.parameters s.parameters = some p
  parameters : (calibrationCommand s line now).1.parameters = p
  action : (calibrationCommand s line now).1.action = .set
  ok : (calibrationCommand s line now).2.2.isOk

theorem command_parameters (s : CalibrationProtocol F) (line : List Char) (now : UInt64) :
    ((calibrationCommand s line now).1.parameters = s.parameters ∧
        (calibrationCommand s line now).1.action ≠ .set) ∨
      ∃ r p, Accepts s line now r p := by
  have hcommanded := commanded s now line
  generalize hout : calibrationCommand s line now = out at hcommanded ⊢
  obtain ⟨hexpired, handled, hreply, -⟩ := hcommanded
  rcases handled.parameters rfl with ⟨hsame, haction⟩ | ⟨r, p, hline, hp, hparameters, haction, rfl⟩
  · exact .inl ⟨hsame.trans hexpired.parameters, haction⟩
  · refine .inr ⟨r, p, ?_, ?_, ?_, ?_, ?_⟩
    · rw [accepted, hout, hline]
      exact if_pos hreply
    · rw [← hexpired.parameters]
      exact hp
    · rw [hout]
      exact hparameters
    · rw [hout]
      exact haction
    · rw [hout]
      exact hreply

/-- An `ok` reply reports the parameters of the state it leaves. -/
theorem command_reply {line : List Char} {id : ℕ} {status : Status F}
    (h : (calibrationCommand s line now).2.2 = .ok id status) :
    status.parameters = (calibrationCommand s line now).1.parameters := by
  have hcommanded := commanded s now line
  generalize calibrationCommand s line now = out at hcommanded h ⊢
  cases hcommanded with
  | @intro _ s' brake error reply _ _ hreply hstatus =>
    obtain rfl : reply = .ok id status := h
    cases error with
    | none =>
      obtain ⟨-, rfl⟩ := Reply.ok.inj (hstatus rfl)
      rfl
    | some error => cases hreply

/-- A well-formed `status` is accepted. -/
theorem status_isOk {line : List Char} (hline : lineRequest line = some .status) :
    (calibrationCommand s line now).2.2.isOk := by
  have hcommanded := commanded s now line
  generalize calibrationCommand s line now = out at hcommanded ⊢
  obtain ⟨-, handled, hreply, -⟩ := hcommanded
  rw [hline] at handled
  dsimp only
  rw [hreply]
  generalize hr : some Request.status = r at handled
  cases handled with
  | refused _ _ hrefused => exact absurd hr.symm hrefused.2.2
  | rejectedDrive => cases hr
  | configure _ _ _ hp =>
    cases hr
    cases hp
  | _ => rfl

end CalibrationProtocol

/-! ### What a line does to the layers -/

section Lines

variable {F : Type} [Double F] {env : FirmwareBus F} {fw : Firmware F}

omit [Double F] in
theorem recordAccepted_suffix (history : List (Request × UInt64)) (now : UInt64)
    (r : Option Request) : history <:+ recordAccepted history now r := by
  cases r with
  | none => exact List.suffix_refl _
  | some r => exact List.suffix_cons _ _

/-- The reading a command line is processed at. -/
def lineTime (env : FirmwareBus F) (fw : Firmware F) : UInt64 :=
  env.clock (observeState env fw).wheels.ticks

/-- The protocol's part of a line. -/
theorem commandAndBrake_layers (env : FirmwareBus F) (fw : Firmware F) (line : List Char) :
    SameParameters fw.wheels (commandAndBrake env fw line).1.wheels ∧
      (commandAndBrake env fw line).1.outbox = fw.outbox ∧
      (commandAndBrake env fw line).1.state =
        (calibrationCommand fw.state line (env.clock fw.wheels.ticks)).1 ∧
      (commandAndBrake env fw line).1.protocol.history =
        recordAccepted fw.protocol.history (env.clock fw.wheels.ticks)
          (accepted fw.state line (env.clock fw.wheels.ticks)) ∧
      (commandAndBrake env fw line).2 =
        (calibrationCommand fw.state line (env.clock fw.wheels.ticks)).2.2 := by
  have hread : SameParameters fw.wheels (readClock env.toBus fw.wheels).2 := ⟨rfl, rfl, rfl⟩
  rw [commandAndBrake]
  dsimp only
  split
  · refine ⟨?_, rfl, rfl, rfl, rfl⟩
    exact hread.trans (brakeAll_extends env.toBus (readClock env.toBus fw.wheels).2).parameters
  · exact ⟨hread, rfl, rfl, rfl, rfl⟩

/-- A line that takes no parameters is carried. -/
theorem commandAndBrake_carried {line : List Char}
    (h : (calibrationCommand fw.state line (env.clock fw.wheels.ticks)).1.parameters =
      fw.state.parameters) : Carried fw (commandAndBrake env fw line).1 := by
  obtain ⟨hwheels, houtbox, hstate, hhistory, -⟩ := commandAndBrake_layers env fw line
  refine ⟨⟨?_, hwheels⟩, houtbox, ?_⟩
  · rw [hstate, h]
  · rw [hhistory]
    exact recordAccepted_suffix _ _ _

/-- The parameters the wheels are offered are in force, or rolled back. -/
theorem applyParameters_layers (env : FirmwareBus F) (fw : Firmware F)
    (previous : CalibrationParameters F) :
    ((applyParameters env fw previous).2 = false ∧
        (wheelsConfigureCalibration env.toBus fw.wheels fw.state.parameters).2 = false ∧
        Carried (fw.setParameters previous) (applyParameters env fw previous).1) ∨
      ((applyParameters env fw previous).2 = true ∧
        (wheelsConfigureCalibration env.toBus fw.wheels fw.state.parameters).2 = true ∧
        Installed fw.wheels.gyroConfig (applyParameters env fw previous).1.wheels
          fw.state.parameters ∧
        (applyParameters env fw previous).1.protocol = fw.protocol ∧
        (applyParameters env fw previous).1.outbox = fw.outbox) := by
  rw [applyParameters]
  dsimp only
  rcases wheelsConfigureCalibration_cases env.toBus fw.wheels fw.state.parameters with
    ⟨-, hrefused⟩ | ⟨-, htaken, hconfigured⟩
  · rw [hrefused]
    refine .inl ⟨rfl, rfl, ⟨⟨rfl, ⟨rfl, rfl, rfl⟩⟩, rfl, List.suffix_refl _⟩⟩
  · rw [htaken, if_neg (by simp)]
    have hinstalled := hconfigured.installed
    split
    · exact .inr ⟨rfl, rfl, hinstalled, rfl, rfl⟩
    · exact .inr ⟨rfl, rfl, hinstalled, rfl, rfl⟩

/-- An action other than `set` changes no parameters. -/
theorem performAction_carried (env : FirmwareBus F) (haction : fw.state.action ≠ .set)
    (previous : CalibrationParameters F) : Carried fw (performAction env fw previous).1 := by
  have hvelocity : Carried fw { fw with
      wheels := (wheelsSetVelocity env.toBus fw.wheels fw.state.vx fw.state.wz).1 } := by
    rcases wheelsSetVelocity_cases env.toBus fw.wheels fw.state.vx fw.state.wz with
      hrefused | ⟨-, -, left, right, hstart⟩
    · rw [hrefused]
      exact readClock_carried env fw
    · rw [hstart]
      exact ⟨⟨rfl, ⟨rfl, rfl, rfl⟩⟩, rfl, List.suffix_refl _⟩
  rw [performAction]
  cases haction' : fw.state.action with
  | none | bound => exact .of_eq rfl rfl rfl
  | measure => exact (readClock_carried env fw).trans (.of_eq rfl rfl rfl)
  | gyro => exact ⟨⟨rfl, restart_parameters fw.wheels⟩, rfl, List.suffix_refl _⟩
  | set => exact absurd haction' haction
  | drive | release => exact hvelocity

/-- The line was a `set` or `config` asking for `p`, accepted by the protocol and by
`wheels_configure_calibration`, and both layers hold `p`. -/
structure Reconfigured (env : FirmwareBus F) (fw : Firmware F) (line : List Char) (r : Request)
    (p : CalibrationParameters F) (out : Firmware F) : Prop where
  accepted : accepted (observeState env fw).state line (lineTime env fw) = some r
  asked : r.parameters fw.state.parameters = some p
  taken : (wheelsConfigureCalibration env.toBus
    (commandAndBrake env (observeState env fw) line).1.wheels p).2 = true
  protocol : out.state.parameters = p
  installed : Installed fw.wheels.gyroConfig out.wheels p
  outbox : out.outbox = fw.outbox
  history : (r, lineTime env fw) :: fw.protocol.history <:+ out.protocol.history

theorem Reconfigured.carried {line : List Char} {r : Request} {p : CalibrationParameters F}
    {out out' : Firmware F} (h : Reconfigured env fw line r p out) (hcarried : Carried out out') :
    Reconfigured env fw line r p out' :=
  { h with
    protocol := hcarried.protocol.trans h.protocol
    installed := h.installed.same hcarried.wheels
    outbox := hcarried.outbox.trans h.outbox
    history := h.history.trans hcarried.history }

/-- A command line changes both layers or neither. -/
theorem commandLine_layers (env : FirmwareBus F) (fw : Firmware F) (line : List Char) :
    Carried fw (commandLine env fw line).1 ∨
      ∃ r p, Reconfigured env fw line r p (commandLine env fw line).1 ∧
        (commandLine env fw line).2.isOk := by
  have hobserved := observeState_carried env fw
  set observed := observeState env fw with hobs
  obtain ⟨hwheels, houtbox, hstate, hhistory, hreply⟩ := commandAndBrake_layers env observed line
  set commanded := commandAndBrake env observed line with hcommanded
  have hunfold : commandLine env fw line =
      if !(performAction env commanded.1 observed.state.parameters).2 then
        (firmwareBrakeAll env
          ((performAction env commanded.1 observed.state.parameters).1.call
            (.fault "hardware_rejected")), .error (lineId line) "hardware_rejected")
      else ((performAction env commanded.1 observed.state.parameters).1, commanded.2) := rfl
  rw [hunfold]
  rcases command_parameters observed.state line (env.clock observed.wheels.ticks) with
    ⟨hsame, haction⟩ | ⟨r, p, haccepts⟩
  · -- no parameters were accepted, and the action takes none
    left
    have hact := performAction_carried env (by rw [hstate]; exact haction)
      observed.state.parameters
    have hacted := (hobserved.trans (commandAndBrake_carried hsame)).trans hact
    split
    · exact (hacted.trans (call_carried _ rfl)).trans (brakeAll_carried env _)
    · exact hacted
  · have haction : commanded.1.state.action = .set := by rw [hstate]; exact haccepts.action
    have hperform : performAction env commanded.1 observed.state.parameters =
        applyParameters env commanded.1 observed.state.parameters := by
      rw [performAction, haction]
    have hp : commanded.1.state.parameters = p := by rw [hstate]; exact haccepts.parameters
    rw [hperform]
    rcases applyParameters_layers env commanded.1 observed.state.parameters with
      ⟨hrejected, -, hback⟩ | ⟨htaken, hconfigured, hinstalled, hkept, hsent⟩
    · -- the hardware refuses: the protocol goes back to what it had before the line
      left
      rw [hrejected, if_pos (by rfl)]
      refine Carried.trans ?_ ((hback.trans (call_carried _ rfl)).trans (brakeAll_carried env _))
      refine ⟨⟨hobserved.protocol, hobserved.wheels.trans hwheels⟩,
        houtbox.trans hobserved.outbox, hobserved.history.trans ?_⟩
      show observed.protocol.history <:+ commanded.1.protocol.history
      rw [hhistory]
      exact recordAccepted_suffix _ _ _
    · -- the hardware takes the set the protocol has accepted
      right
      rw [htaken, if_neg (by simp)]
      refine ⟨r, p, ⟨haccepts.accepted, ?_, ?_, ?_, ?_, ?_, ?_⟩, ?_⟩
      · rw [← hobserved.protocol]
        exact haccepts.asked
      · rw [← hp]
        exact hconfigured
      · rw [Firmware.state, hkept]
        exact hp
      · rw [← hp, ← (hobserved.wheels.trans hwheels).gyroConfig]
        exact hinstalled
      · exact hsent.trans (houtbox.trans hobserved.outbox)
      · rw [hkept, hhistory, haccepts.accepted]
        exact List.suffix_refl _
      · rw [hreply]
        exact haccepts.ok

/-- A status request of the firmware's own changes no parameters. -/
theorem statusLine_parameters (s : CalibrationProtocol F) (id : ℕ) (now : UInt64) :
    (calibrationCommand s (statusLine id) now).1.parameters = s.parameters := by
  rcases command_parameters s (statusLine id) now with ⟨hsame, -⟩ | ⟨r, p, haccepts⟩
  · exact hsame
  · have haccepted := haccepts.accepted
    rw [accepted] at haccepted
    split_ifs at haccepted
    have hasked := haccepts.asked
    rcases lineRequest_statusLine id with hnone | hstatus
    · rw [hnone] at haccepted
      cases haccepted
    · rw [hstatus] at haccepted
      cases haccepted
      cases hasked

theorem confirmStatus_carried (env : FirmwareBus F) (fw : Firmware F) (line : List Char)
    (reply : Reply F) : Carried fw (confirmStatus env fw line reply).1 := by
  rw [confirmStatus]
  split
  · exact (observeState_carried env fw).trans
      (commandAndBrake_carried (statusLine_parameters _ _ _))
  · exact .of_eq rfl rfl rfl

/-- An accepted line is confirmed. -/
theorem confirmStatus_isOk {line : List Char} {reply : Reply F} (hreply : reply.isOk)
    (hline : wellFormed line) : (confirmStatus env fw line reply).2.isOk := by
  have hid : lineId line ≤ 2147483647 := by
    simp only [wellFormed, validId, Bool.and_eq_true] at hline
    have hvalid := hline.1.1
    split at hvalid
    · rw [Bool.and_eq_true] at hvalid
      exact of_decide_eq_true hvalid.2
    · cases hvalid
  have hstatus : lineRequest (statusLine (lineId line)) = some .status := by
    rcases lineRequest_statusLine (lineId line) with hnone | hstatus
    · rw [lineRequest, if_pos (wellFormed_statusLine hid)] at hnone
      cases hnone
    · exact hstatus
  rw [confirmStatus, if_pos hreply]
  obtain ⟨-, -, -, -, hout⟩ := commandAndBrake_layers env (observeState env fw)
    (statusLine (lineId line))
  rw [hout]
  exact status_isOk hstatus

/-- Only well-formed lines are accepted. -/
theorem wellFormed_of_accepted {s : CalibrationProtocol F} {line : List Char} {now : UInt64}
    {r : Request} (h : accepted s line now = some r) : wellFormed line := by
  rw [accepted] at h
  split_ifs at h
  rw [lineRequest] at h
  split_ifs at h with hline
  exact hline

/-- A line changes both layers or neither. -/
theorem handleLine_layers (env : FirmwareBus F) (fw : Firmware F) :
    Carried fw (handleLine env fw).1 ∨
      ∃ r p, fw.overflow = false ∧ Reconfigured env fw fw.line r p (handleLine env fw).1 ∧
        (handleLine env fw).2.isOk := by
  rw [handleLine]
  split
  · exact .inl ((call_carried fw rfl).trans (brakeAll_carried env _))
  next hoverflow =>
    have hconfirm := confirmStatus_carried env (commandLine env fw fw.line).1 fw.line
      (commandLine env fw fw.line).2
    rcases commandLine_layers env fw fw.line with hcarried | ⟨r, p, hboth, hok⟩
    · exact .inl (hcarried.trans hconfirm)
    · refine .inr ⟨r, p, by simpa using hoverflow, hboth.carried hconfirm, ?_⟩
      exact confirmStatus_isOk hok (wellFormed_of_accepted hboth.accepted)

/-- An `ok` reply reports what the protocol holds. -/
theorem handleLine_reply {id : ℕ} {status : Status F}
    (h : (handleLine env fw).2 = .ok id status) :
    status.parameters = (handleLine env fw).1.state.parameters := by
  rw [handleLine] at h ⊢
  split at h
  · cases h
  next hoverflow =>
    rw [if_neg hoverflow]
    dsimp only at h ⊢
    rw [confirmStatus] at h ⊢
    split at h
    next hok =>
      rw [if_pos hok]
      obtain ⟨-, -, hstate, -, hreply⟩ := commandAndBrake_layers env
        (observeState env (commandLine env fw fw.line).1) (statusLine (lineId fw.line))
      rw [hreply] at h
      rw [hstate]
      exact command_reply h
    next hok =>
      exact absurd (by rw [h]; rfl) hok

/-! ### Replies -/

/-- What was reported is what was in force. -/
def Sent.Agrees (sent : Sent F) : Prop :=
  sent.parameters = sent.active ∧
    ∀ id status, sent.reply = .ok id status → status.parameters = sent.active

/-- A reply is sent, or dropped. -/
theorem sendReply_outbox (env : FirmwareBus F) (fw : Firmware F) (reply : Reply F) :
    (sendReply env fw reply).outbox = fw.outbox ∨
      ∃ sent, (sendReply env fw reply).outbox = sent :: fw.outbox ∧ sent.reply = reply ∧
        sent.parameters = fw.state.parameters ∧ sent.active = wheelsGetParameters fw.wheels := by
  rw [sendReply]
  dsimp only
  split
  · exact .inr ⟨_, rfl, rfl, rfl, rfl⟩
  · exact .inl rfl

/-- The answer to a line. -/
def answerLine (env : FirmwareBus F) (fw : Firmware F) : Firmware F :=
  sendReply env (handleLine env fw).1 (handleLine env fw).2

/-! ### Runs -/

/-- The state of iteration `n` after `k` polls for input. -/
def lineState (env : FirmwareBus F) (n k : ℕ) : Firmware F :=
  readInput env k (beginIteration env (firmwareRun env n))

variable {I : Firmware F → Prop}

theorem readChar_invariant (hcarried : ∀ fw fw', I fw → Carried fw fw' → I fw')
    (hline : ∀ fw, I fw → I (answerLine env fw)) (h : I fw) (ch : UInt8) :
    I (readChar env fw ch) := by
  have hsame {fw fw' : Firmware F} (h : I fw) (hprotocol : fw'.protocol = fw.protocol)
      (hwheels : fw'.wheels = fw.wheels) (houtbox : fw'.outbox = fw.outbox) : I fw' :=
    hcarried fw fw' h (.of_eq hprotocol hwheels houtbox)
  rw [readChar]
  split
  · split
    · exact hsame (hline fw h) rfl rfl rfl
    · exact hsame h rfl rfl rfl
  · split
    · exact hsame h rfl rfl rfl
    · split
      · exact hsame h rfl rfl rfl
      · exact hsame h rfl rfl rfl

theorem readInput_invariant (hcarried : ∀ fw fw', I fw → Carried fw fw' → I fw')
    (hline : ∀ fw, I fw → I (answerLine env fw)) (budget : ℕ) (h : I fw) :
    I (readInput env budget fw) := by
  induction budget generalizing fw with
  | zero => exact h
  | succ budget ih =>
    have hpolled : I { fw with polls := fw.polls + 1 } := hcarried fw _ h (.of_eq rfl rfl rfl)
    rw [readInput]
    split
    · exact hpolled
    · exact ih (readChar_invariant hcarried hline hpolled _)

/-- What holds at boot, is carried and is kept by every line holds of every run, also
between the lines of an iteration. -/
theorem firmware_invariant (env : FirmwareBus F)
    (hcarried : ∀ fw fw', I fw → Carried fw fw' → I fw')
    (hline : ∀ fw, I fw → I (answerLine env fw)) (hboot : I (firmwareBoot env)) (n : ℕ) :
    I (firmwareRun env n) ∧ ∀ k, I (lineState env n k) := by
  have hlines {fw : Firmware F} (h : I fw) (k : ℕ) : I (readInput env k (beginIteration env fw)) :=
    readInput_invariant hcarried hline k (hcarried _ _ h (beginIteration_carried env fw))
  have hrun : I (firmwareRun env n) := by
    induction n with
    | zero => exact hboot
    | succ n ih =>
      rw [firmwareRun_succ]
      refine hcarried _ _ (hlines ih inputBudget) ?_
      exact (expireAndBrake_carried env _).trans (endIteration_carried env _)
  exact ⟨hrun, hlines hrun⟩

end Lines
