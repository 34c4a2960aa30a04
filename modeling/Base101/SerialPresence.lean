/-
The operator's presence during trials.

Trial, sequence and presence messages set the deadline up to which the serial thread
sends a trial's drives.  So does the start of the next subtest of a sequence, without a
message.

* `Attended` — an active trial or sequence belongs to the sender of the last such
  message, and the deadline is a second after that message, or after the start of a subtest
  since;
* `Attended.present` — past both, a decision ends the trial and its sequence;
* `drives_attended` — a drive is chosen within a second of the last message, in runs
  where no decision falls into the time that the start of a subtest adds;
* `drive_unattended` — the start of a subtest can extend the deadline.
-/
import Base101.SerialDeadline

namespace SerialLink

open Double

section Presence

variable {F : Type} [Double F] {s s' s'' : Server F} {now : F}

/-! ### The last message -/

omit [Double F] in
/-- A trial or a sequence. -/
def Active (s : Server F) : Prop := s.trial.isSome = true ∨ s.sequence.isSome = true

instance (s : Server F) : Decidable (Active s) := inferInstanceAs (Decidable (_ ∨ _))

/-- The last message is the owner's, and sets the deadline; so does the start of a subtest
since. -/
def Attended (s : Server F) : Prop :=
  Active s → ∃ client received, s.message = some (client, received) ∧
    s.intentUntil = s.renewed.getD received + trialPresenceTimeoutS ∧
    (s.armed = true → s.operatorClient = some client)

theorem attended_boot (stored : List TrialResult) : Attended (boot stored : Server F) := by
  rintro (htrial | hsequence)
  · cases htrial
  · cases hsequence

/-- Without a message: the deadline stays, or a subtest has started. -/
structure Tended (s s' : Server F) : Prop where
  message : s'.message = s.message
  operatorClient : s'.operatorClient = s.operatorClient
  operatorSequence : s'.operatorSequence = s.operatorSequence
  armed : s'.armed = true → s.armed = true
  active : Active s' → Active s
  deadline : (∃ started, s'.renewed = some started ∧
      s'.intentUntil = started + trialPresenceTimeoutS) ∨
    s'.renewed = s.renewed ∧ s'.intentUntil = s.intentUntil

namespace Tended

/-- Other fields may change. -/
theorem of_eq (hmessage : s'.message = s.message) (hclient : s'.operatorClient = s.operatorClient)
    (hseq : s'.operatorSequence = s.operatorSequence)
    (harmed : s'.armed = true → s.armed = true) (htrial : s'.trial = s.trial)
    (hsequence : s'.sequence = s.sequence) (hrenewed : s'.renewed = s.renewed)
    (huntil : s'.intentUntil = s.intentUntil) : Tended s s' where
  message := hmessage
  operatorClient := hclient
  operatorSequence := hseq
  armed := harmed
  active := by
    rw [Active, Active, htrial, hsequence]
    exact id
  deadline := .inr ⟨hrenewed, huntil⟩

/-- Or the operator is disarmed. -/
theorem of_disarm (hmessage : s'.message = s.message)
    (hclient : s'.operatorClient = s.operatorClient)
    (hseq : s'.operatorSequence = s.operatorSequence) (harmed : s'.armed = false)
    (htrial : s'.trial = s.trial) (hsequence : s'.sequence = s.sequence)
    (hrenewed : s'.renewed = s.renewed) (huntil : s'.intentUntil = s.intentUntil) :
    Tended s s' := by
  refine of_eq hmessage hclient hseq ?_ htrial hsequence hrenewed huntil
  intro harmed'
  rw [harmed] at harmed'
  cases harmed'

theorem refl (s : Server F) : Tended s s := of_eq rfl rfl rfl id rfl rfl rfl rfl

theorem trans (h : Tended s s') (h' : Tended s' s'') : Tended s s'' where
  message := h'.message.trans h.message
  operatorClient := h'.operatorClient.trans h.operatorClient
  operatorSequence := h'.operatorSequence.trans h.operatorSequence
  armed := fun harmed => h.armed (h'.armed harmed)
  active := fun hactive => h.active (h'.active hactive)
  deadline := by
    rcases h'.deadline with hstarted | ⟨hrenewed, huntil⟩
    · exact .inl hstarted
    · rw [hrenewed, huntil]
      exact h.deadline

theorem of_kept (h : Kept s s') : Tended s s' where
  message := h.message
  operatorClient := h.operatorClient
  operatorSequence := h.operatorSequence
  armed := h.armed
  active := by
    rintro (htrial | hsequence)
    · rcases h.trial with hnone | hsame
      · rw [hnone] at htrial
        cases htrial
      · rw [hsame] at htrial
        exact .inl htrial
    · exact .inr (h.sequence hsequence)
  deadline := .inr ⟨h.renewed, h.intentUntil⟩

end Tended

theorem Attended.tended (h : Attended s) (htended : Tended s s') : Attended s' := by
  intro hactive
  obtain ⟨client, received, hmessage, huntil, howner⟩ := h (htended.active hactive)
  refine ⟨client, received, htended.message.trans hmessage, ?_, ?_⟩
  · rcases htended.deadline with ⟨started, hrenewed, hstarted⟩ | ⟨hrenewed, hsame⟩
    · rw [hrenewed]
      exact hstarted
    · rw [hrenewed, hsame]
      exact huntil
  · intro harmed
    rw [htended.operatorClient]
    exact howner (htended.armed harmed)

/-! ### Operator messages -/

omit [Double F] in
theorem not_active (htrial : s.trial = none) (hsequence : s.sequence = none) : ¬Active s := by
  rintro (h | h)
  · rw [htrial] at h
    cases h
  · rw [hsequence] at h
    cases h

theorem Attended.operated {action : Action} (h : Attended s)
    (hoperated : Operated s now action s') : Attended s' := by
  cases hoperated with
  | refused hnoted =>
    obtain ⟨client, seq, seen, rfl, howner⟩ := hnoted
    intro hactive
    obtain ⟨client', received, hmessage, huntil, howner'⟩ := h hactive
    refine ⟨client', received, hmessage, huntil, ?_⟩
    intro harmed
    rcases howner with rfl | hdisarmed
    · exact howner' harmed
    · have harmed : s.armed = true := harmed
      rw [hdisarmed] at harmed
      cases harmed
  | takeover hnoted hkept htrial hsequence => exact fun h => (not_active htrial hsequence h).elim
  | manual armed intent intentUntil releasePending hnoted htrial hsequence =>
    exact fun h => (not_active htrial hsequence h).elim
  | @presence s₁ client hnoted howner =>
    exact fun _ => ⟨client, now, rfl, rfl, fun _ => howner⟩
  | @started s₀ s₁ s₂ p client hnoted howner haction hbegun hstart =>
    intro _
    obtain ⟨T, -, -, -, rfl⟩ := startTrial_ok hstart
    refine ⟨client, now, rfl, rfl, fun _ => ?_⟩
    cases hbegun <;> exact howner

/-! ### The serial thread -/

theorem TrialTicked.tended {control : Option (Control F)} (h : TrialTicked s now control s') :
    Tended s s' := by
  have hmove {T T' : Trial F} {intent : Option (F × F)} (htrial : s.trial = some T) :
      Tended s { s with trial := some T', intent } :=
    { message := rfl, operatorClient := rfl, operatorSequence := rfl, armed := id
      active := fun _ => .inl (by rw [htrial]; rfl)
      deadline := .inr ⟨rfl, rfl⟩ }
  cases h with
  | idle htrial => exact Tended.refl s
  | stop hkept htrial hbroken hsteps => exact Tended.of_kept hkept
  | prepare htrial hphase hpresent => exact Tended.refl s
  | release htrial hsame hphase hpresent => exact hmove htrial
  | settle htrial hsame hphase hpresent => exact hmove htrial
  | drive htrial hsame hphase hphase' hpresent => exact hmove htrial

theorem ticks_tended (s : Server F) (now : F) : Tended s (ticks s now).2 := by
  have hsequence := sequenceTick_ticked s now
  rw [ticks]
  generalize sequenceTick s now = out at hsequence
  obtain ⟨control, s'⟩ := out
  cases hsequence with
  | stop hkept htrial hended hsteps => exact Tended.of_kept hkept
  | idle => exact (trialTick_ticked _ now).tended
  | @start p s' seq hstart htrial hsequence hrecipe hpresent =>
    obtain ⟨T, -, -, -, rfl⟩ := startTrial_ok hstart
    have hrenewed : Tended s { s with
        trial := some T, intentUntil := now + trialPresenceTimeoutS
        nextTrial := s.nextTrial + 1, log := .started s.nextTrial :: s.log
        renewed := some now } :=
      { message := rfl, operatorClient := rfl, operatorSequence := rfl, armed := id
        active := fun _ => .inr (by rw [hsequence]; rfl)
        deadline := .inl ⟨now, rfl, rfl⟩ }
    exact hrenewed.trans (trialTick_ticked _ now).tended

theorem chooseControl_tended (s : Server F) (now : F) : Tended s (chooseControl s now).2 := by
  obtain ⟨armed, intent, nextDrive, releasePending, forceStop, hchosen, harmed⟩ :=
    chooseControl_frame s now
  rw [hchosen]
  exact (ticks_tended s now).trans (Tended.of_eq rfl rfl rfl harmed rfl rfl rfl rfl)

/-- Lost presence ends the trial and the rest of the sequence. -/
theorem ticks_lost (hlost : presenceFailure s now ≠ none) : ¬Active (ticks s now).2 := by
  have hsequence := sequenceTick_ticked s now
  rw [ticks]
  generalize sequenceTick s now = out at hsequence
  obtain ⟨control, s'⟩ := out
  cases hsequence with
  | stop hkept htrial hended hsteps => exact not_active htrial hended
  | idle hpresent =>
    have hticked := trialTick_ticked s' now
    show ¬Active (trialTick s' now).2
    generalize trialTick s' now = out at hticked
    obtain ⟨control, s''⟩ := out
    cases hticked with
    | idle htrial =>
      -- a pause without presence ends
      refine not_active htrial ?_
      by_contra hsequence
      exact hlost (hpresent htrial hsequence)
    | stop hkept htrial hbroken hsteps => exact not_active htrial (hbroken hlost)
    | prepare htrial hphase hpresent => exact absurd hpresent hlost
    | release htrial hsame hphase hpresent => exact absurd hpresent hlost
    | settle htrial hsame hphase hpresent => exact absurd hpresent hlost
    | drive htrial hsame hphase hphase' hpresent => exact absurd hpresent hlost
  | start hstart htrial hsequence hrecipe hpresent => exact absurd hpresent hlost

theorem chooseControl_lost (hlost : presenceFailure s now ≠ none) :
    ¬Active (chooseControl s now).2 := by
  obtain ⟨armed, intent, nextDrive, releasePending, forceStop, hchosen, -⟩ :=
    chooseControl_frame s now
  rw [hchosen]
  exact ticks_lost hlost

theorem Threaded.tended {input : Input F} (h : Threaded s now input s') : Tended s s' := by
  cases h with
  | goesOn => exact Tended.of_eq rfl rfl rfl id rfl rfl rfl rfl
  | chosen =>
    exact (chooseControl_tended s now).trans (Tended.of_eq rfl rfl rfl id rfl rfl rfl rfl)
  | driving htrial =>
    exact { message := rfl, operatorClient := rfl, operatorSequence := rfl, armed := fun h => h
            active := fun _ => .inl (by rw [htrial]; rfl)
            deadline := .inr ⟨rfl, rfl⟩ }
  | cancelled =>
    exact (Tended.of_kept (cancelOperator_kept s now)).trans
      (Tended.of_eq rfl rfl rfl id rfl rfl rfl rfl)
  | failed error =>
    exact (Tended.of_kept (finishTrial_kept s _ false now)).trans
      (Tended.of_eq rfl rfl rfl id rfl rfl rfl rfl)
  | closing => exact Tended.of_disarm rfl rfl rfl rfl rfl rfl rfl rfl

theorem threadStep_tended (s : Server F) (now : F) (input : Input F) :
    Tended s (threadStep s now input) :=
  (threadStep_threaded s now input).tended

/-- Every step keeps it. -/
theorem Attended.step (h : Attended s) (e : Event F) : Attended (step s e) := by
  cases e with
  | operator now action message => exact h.operated (operator_operated s now action message)
  | halt now calibrate =>
    have hkept := Tended.of_kept (cancelOperator_kept s now)
    exact h.tended (hkept.trans (Tended.of_eq rfl rfl rfl id rfl rfl rfl rfl))
  | parameters line full =>
    rw [SerialLink.step]
    split
    · exact h
    · split <;> exact h
  | request now handler =>
    rw [SerialLink.step, queueRequest]
    split
    · exact h
    · dsimp only
      split <;> exact h
  | saveBegin now =>
    rw [SerialLink.step, beginSave]
    split
    · exact h
    · split <;> exact h
  | saveEnd => exact h
  | close => exact h
  | thread now input => exact h.tended (threadStep_tended s now input)

/-! ### Decisions -/

/-- The moment at which the thread chooses its next command. -/
def decidesAt (s : Server F) (e : Event F) : Option F :=
  match e, s.pc with
  | .thread now .go, .choose => some now
  | _, _ => none

end Presence

section Exact

variable {K : Type} [Field K] [LinearOrder K] [IsStrictOrderedRing K] [FloorRing K] [Libm K]

/-- A drive of a trial is chosen within a second of the owner's last message, and a
second without a message ends the trial and its sequence. -/
def DrivesAttended (s : Server K) (e : Event K) : Prop :=
  ∀ now ∈ decidesAt s e,
    (∀ vx wz, (chooseControl s now).1 = some (.send (.drive vx wz)) →
      (chooseControl s now).2.trial.isSome = true →
      ∃ client received, (chooseControl s now).2.message = some (client, received) ∧
        (chooseControl s now).2.operatorClient = some client ∧
        now - received < trialPresenceTimeoutS) ∧
    (∀ m ∈ s.message, trialPresenceTimeoutS ≤ now - m.2 →
      (chooseControl s now).2.trial = none ∧ (chooseControl s now).2.sequence = none)

/-- A subtest that starts by itself adds the time from a second after the last message to a
second after the start.  No decision about a trial or a sequence falls into it. -/
def Punctual (s : Server K) (e : Event K) : Prop :=
  ∀ now ∈ decidesAt s e, Active s → ∀ m ∈ s.message, ∀ started ∈ s.renewed,
    ¬(m.2 + trialPresenceTimeoutS ≤ now ∧ now < started + trialPresenceTimeoutS)

instance (s : Server K) (e : Event K) : Decidable (Punctual s e) :=
  inferInstanceAs (Decidable (∀ now ∈ decidesAt s e, _ → ∀ m ∈ s.message, ∀ t ∈ s.renewed, _))

omit [IsStrictOrderedRing K] in
/-- What is still active after a decision has had a message, or the start of a subtest,
within a second: past both the decision ends it. -/
theorem Attended.present {s : Server K} {now : K} (h : Attended s)
    (hactive : Active (chooseControl s now).2) :
    ∃ client received, s.message = some (client, received) ∧
      now < s.renewed.getD received + trialPresenceTimeoutS := by
  have hpresent : presenceFailure s now = none := by
    by_contra hlost
    exact chooseControl_lost hlost hactive
  obtain ⟨client, received, hmessage, huntil, -⟩ := h ((chooseControl_tended s now).active hactive)
  refine ⟨client, received, hmessage, ?_⟩
  rw [← huntil]
  exact not_le.mp (presenceFailure_none hpresent).2

/-- And within a second of the message, where no time has been added. -/
theorem Attended.recent {s : Server K} {now : K} (h : Attended s)
    (hpunctual : Active s → ∀ m ∈ s.message, ∀ started ∈ s.renewed,
      ¬(m.2 + trialPresenceTimeoutS ≤ now ∧ now < started + trialPresenceTimeoutS))
    (hactive : Active (chooseControl s now).2) :
    ∃ client received, s.message = some (client, received) ∧
      now - received < trialPresenceTimeoutS := by
  have hbefore : Active s := (chooseControl_tended s now).active hactive
  obtain ⟨client, received, hmessage, hdeadline⟩ := h.present hactive
  refine ⟨client, received, hmessage, ?_⟩
  cases hrenewed : s.renewed with
  | none =>
    rw [hrenewed] at hdeadline
    exact sub_lt_iff_lt_add'.mpr hdeadline
  | some started =>
    rw [hrenewed] at hdeadline
    have hadded := hpunctual hbefore (client, received) hmessage started hrenewed
    by_contra hlate
    exact hadded ⟨by linarith, hdeadline⟩

theorem Attended.drives {s : Server K} {e : Event K} (h : Attended s) (hpunctual : Punctual s e) :
    DrivesAttended s e := by
  intro now hnow
  have hrecent := h.recent (hpunctual now hnow)
  have htended := chooseControl_tended s now
  have hafter := h.tended htended
  have hchosen := chooseControl_chosen s now
  refine ⟨?_, ?_⟩
  · intro vx wz hdrive htrial
    obtain ⟨client, received, hmessage, hlate⟩ := hrecent (.inl htrial)
    obtain ⟨client', received', hmessage', -, howner⟩ := hafter (.inl htrial)
    have hsame := htended.message.symm.trans hmessage'
    rw [hmessage] at hsame
    obtain ⟨rfl, rfl⟩ := Prod.mk.inj (Option.some.inj hsame)
    have harmed : (chooseControl s now).2.armed = true := by
      rw [hdrive] at hchosen
      cases hchosen with
      | drive harmed => exact harmed
    exact ⟨client, received, hmessage', howner harmed, hlate⟩
  · intro m hm hlate
    have hidle : ¬Active (chooseControl s now).2 := by
      intro hactive
      obtain ⟨client, received, hmessage, hrecent⟩ := hrecent hactive
      obtain rfl := Option.some.inj (hm.symm.trans hmessage)
      exact absurd hlate (not_le.mpr hrecent)
    simpa [Active] using hidle

/-- In a run of punctual decisions a trial only moves within a second of its operator's
last message, and lost presence ends the trial and the rest of its sequence. -/
theorem drives_attended (stored : List TrialResult) (es : List (Event K))
    (hpunctual : linkMachine.Always Punctual (boot stored) es) :
    linkMachine.Always DrivesAttended (boot stored) es :=
  Machine.always_of_guarded (fun _ e h _ => h.step e) (fun _ _ h => h.drives)
    (attended_boot stored) hpunctual

end Exact

/-! ### Runs -/

/-- The robot on the move. -/
def movingTelemetry : Telemetry ℚ :=
  { restTelemetry with atRest := false, motionEnabled := true, brakeOkMask := 0 }

/-- An iteration of the thread: a heartbeat, and the command it chooses. -/
def iteration (now : ℚ) (before after : Telemetry ℚ) : List (Event ℚ) :=
  goOn now 1 ++ exchange now before ++ goOn now 1 ++ exchange now after ++ goOn now 1

def attend (now : ℚ) (seq : ℤ) : List (Event ℚ) :=
  [.operator now .presence (operatorMessage seq "")]

/-- The first subtest of a sequence, up to its end; the last message comes at three seconds. -/
def firstSubtestRun : List (Event ℚ) :=
  connect ++
    [.operator 0 .arm (operatorMessage 1 ""), .operator 0 .sequence (operatorMessage 2 "")] ++
    prepare 0 ++ goOn 0 3 ++ exchange 0 movingTelemetry ++ goOn 0 1 ++
    attend 0.9 3 ++ iteration 0.9 movingTelemetry movingTelemetry ++
    attend 1.8 4 ++ iteration 1.8 movingTelemetry movingTelemetry ++
    attend 2.7 5 ++ iteration 2.7 movingTelemetry movingTelemetry ++
    attend 3 6 ++ iteration 3 movingTelemetry restTelemetry ++
    iteration 3.2 restTelemetry restTelemetry

/-- The next subtest starts at 3.7 s. -/
def nextSubtest : List (Event ℚ) :=
  goOn 3.7 1 ++ exchange 3.7 restTelemetry ++ prepare 3.7 ++ goOn 3.7 1

/-- The operator is there shortly before, and it drives at 4.5 s. -/
theorem drives_attended_sequence :
    let es := firstSubtestRun ++ attend 3.6 7 ++ nextSubtest ++ goOn 4.5 1 ++
      exchange 4.5 restTelemetry ++ goOn 4.5 1
    linkMachine.Always DrivesAttended (boot []) es ∧
      (linkMachine.run (boot []) es).renewed = some 3.7 ∧
      (linkMachine.run (boot []) es).pc.drivenTrial.isSome = true :=
  ⟨drives_attended [] _ (by decide +kernel), by decide +kernel, by decide +kernel⟩

/-- Nobody is there after three seconds. -/
def unattendedRun : List (Event ℚ) :=
  firstSubtestRun ++ nextSubtest ++ goOn 4.6 1 ++ exchange 4.6 restTelemetry

def Control.drives : Control ℚ → Bool
  | .send (.drive _ _) => true
  | _ => false

theorem Control.exists_of_drives {control : Option (Control ℚ)}
    (h : control.any Control.drives = true) : ∃ vx wz, control = some (.send (.drive vx wz)) := by
  rcases control with _ | _ | motion
  · cases h
  · cases h
  · cases motion with
    | drive vx wz => exact ⟨vx, wz, rfl⟩
    | release => cases h
    | stop => cases h

/-- At 4.6 s a drive of the next subtest is chosen. -/
theorem drive_unattended :
    ¬linkMachine.Always DrivesAttended (boot []) (unattendedRun ++ goOn 4.6 1) := by
  intro h
  have hdecision := h.last 4.6 (by decide +kernel)
  have hdrive : (chooseControl (linkMachine.run (boot []) unattendedRun) 4.6).1.any
      Control.drives = true := by decide +kernel
  have hactive : (chooseControl (linkMachine.run (boot []) unattendedRun) 4.6).2.trial.isSome =
      true := by decide +kernel
  have hmessage : (chooseControl (linkMachine.run (boot []) unattendedRun) 4.6).2.message =
      some ("operator-1", 3) := by decide +kernel
  obtain ⟨vx, wz, hchosen⟩ := Control.exists_of_drives hdrive
  obtain ⟨client, received, hlast, -, hrecent⟩ := hdecision.1 vx wz hchosen hactive
  rw [hmessage] at hlast
  obtain ⟨rfl, rfl⟩ := Prod.mk.inj (Option.some.inj hlast)
  revert hrecent
  decide +kernel

end SerialLink
