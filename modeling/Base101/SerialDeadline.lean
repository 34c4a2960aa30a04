/-
The firmware's deadline of a server trial.

A trial is prepared in two exchanges outside the lock: `measure` with its mode and
`bound` with its duration.  `markDriving` then lets it drive, if it is still there.

* `Orderly` — the mode that was sent is that of the trial the deadline is for, and no
  stop is carried out for an earlier trial once the next one drives;
* `drives_under_deadline` — in a run of such steps every `drive` of a trial is written
  under the trial's own deadline and in its own mode;
* `deadline_lost` — other runs write a `drive` after the deadline was cleared, and in
  the mode of another trial.
-/
import Base101.SerialLinkStep
import Base101.FirmwareParameters

namespace SerialLink

open Double

section Deadline

variable {F : Type} [Double F]

/-! ### What was written -/

/-- The write of `bound`, `stop`, `hello` or `calibrate`. -/
def LinkEvent.setsDeadline : LinkEvent F → Bool
  | .started _ => false
  | .wrote command => command.setsDeadline

/-- The mode of the last `measure`. -/
def lastMode : List (LinkEvent F) → Option Bool
  | [] => none
  | .wrote (.measure body) :: _ => some body
  | _ :: log => lastMode log

/-- The last write that concerns the deadline is the trial's own `bound`, after its start. -/
def BoundWritten (log : List (LinkEvent F)) (T : Trial F) : Prop :=
  ∃ later earlier, log = later ++ .wrote (.bound (boundMs T)) :: earlier ∧
    (∀ e ∈ later, e.setsDeadline = false) ∧ .started T.id ∈ earlier

/-- The firmware took the trial's own deadline, and measures in its mode. -/
structure OwnDeadline (log : List (LinkEvent F)) (mcuBound : Option ℤ) (T : Trial F) : Prop where
  written : BoundWritten log T
  accepted : mcuBound = some (boundMs T)
  mode : lastMode log = some (bodyMeasurement (some T))

theorem boundMs_same {T T' : Trial F} (h : SameTrial T T') : boundMs T' = boundMs T := by
  rw [boundMs, boundMs, h.durationS]

omit [Double F] in
theorem bodyMeasurement_same {T T' : Trial F} (h : SameTrial T T') :
    bodyMeasurement (some T') = bodyMeasurement (some T) := by
  show decide (0 < T'.recipe.step) = decide (0 < T.recipe.step)
  rw [h.recipe]

theorem BoundWritten.same {log : List (LinkEvent F)} {T T' : Trial F} (h : BoundWritten log T)
    (hsame : SameTrial T T') : BoundWritten log T' := by
  obtain ⟨later, earlier, hlog, hlater, hstarted⟩ := h
  refine ⟨later, earlier, ?_, hlater, ?_⟩
  · rw [boundMs_same hsame]
    exact hlog
  · rw [hsame.id]
    exact hstarted

theorem OwnDeadline.same {log : List (LinkEvent F)} {mcuBound : Option ℤ} {T T' : Trial F}
    (h : OwnDeadline log mcuBound T) (hsame : SameTrial T T') : OwnDeadline log mcuBound T' where
  written := h.written.same hsame
  accepted := by
    rw [boundMs_same hsame]
    exact h.accepted
  mode := by
    rw [bodyMeasurement_same hsame]
    exact h.mode

/-- Neither the deadline nor the mode is written. -/
def Harmless (new : List (LinkEvent F)) : Prop :=
  ∀ e ∈ new, e.setsDeadline = false ∧ ∀ body, e ≠ .wrote (.measure body)

omit [Double F] in
theorem lastMode_append {new log : List (LinkEvent F)} (h : Harmless new) :
    lastMode (new ++ log) = lastMode log := by
  induction new with
  | nil => rfl
  | cons e new ih =>
    have he := (h e List.mem_cons_self).2
    have ih := ih fun e' he' => h e' (List.mem_cons_of_mem _ he')
    rw [List.cons_append, ← ih]
    rcases e with id | command
    · rfl
    · cases command with
      | measure body => exact absurd rfl (he body)
      | _ => rfl

theorem BoundWritten.append {new log : List (LinkEvent F)} {T : Trial F}
    (h : BoundWritten log T) (hnew : ∀ e ∈ new, e.setsDeadline = false) :
    BoundWritten (new ++ log) T := by
  obtain ⟨later, earlier, hlog, hlater, hstarted⟩ := h
  refine ⟨new ++ later, earlier, by rw [hlog, List.append_assoc], ?_, hstarted⟩
  intro e he
  rcases List.mem_append.mp he with he | he
  · exact hnew e he
  · exact hlater e he

theorem OwnDeadline.append {new log : List (LinkEvent F)} {mcuBound : Option ℤ} {T : Trial F}
    (h : OwnDeadline log mcuBound T) (hnew : Harmless new) :
    OwnDeadline (new ++ log) mcuBound T where
  written := h.written.append fun e he => (hnew e he).1
  accepted := h.accepted
  mode := by
    rw [lastMode_append hnew]
    exact h.mode

omit [Double F] in
/-- The starts of trials are. -/
theorem harmless_started {new : List (LinkEvent F)}
    (h : ∀ e ∈ new, ∃ id, e = LinkEvent.started id) : Harmless new := by
  intro e he
  obtain ⟨id, rfl⟩ := h e he
  exact ⟨rfl, by simp⟩

/-! ### The invariant -/

/-- The thread is about to end; its last stop is for whatever still drives. -/
def Pc.leaving : Pc F → Bool
  | .send .closing | .await .closing | .ended => true
  | _ => false

/-- Between the choice of a preparation or a stop and its last write, no trial drives. -/
def Pc.quiet : Pc F → Bool
  | .send .hello | .send (.measure _) | .send (.bound _ _) | .send (.control .stop _)
  | .send .rejected | .await (.measure _) | .await (.bound _ _) | .readMode | .readTrial _ => true
  | _ => false

/-- What the thread relies on at its position. -/
def PcOk (s : Server F) : Prop :=
  match s.pc with
  | .await (.measure body) => lastMode s.log = some body
  | .readTrial body => lastMode s.log = some body
  | .send (.bound (some id) ms) => id < s.nextTrial ∧ ∀ T ∈ s.trial, T.id = id →
      ms = boundMs T ∧ lastMode s.log = some (bodyMeasurement (some T))
  | .await (.bound (some id) ms) => id < s.nextTrial ∧ ∀ T ∈ s.trial, T.id = id →
      ms = boundMs T ∧ lastMode s.log = some (bodyMeasurement (some T)) ∧ BoundWritten s.log T
  | .markDriving (some id) => id < s.nextTrial ∧ ∀ T ∈ s.trial, T.id = id →
      OwnDeadline s.log s.mcuBound T
  | .send (.control (.drive _ _) (some T)) => OwnDeadline s.log s.mcuBound T
  | _ => True

/-- A trial that drives does so under its own deadline. -/
structure Bounded (s : Server F) : Prop where
  ids : ∀ T ∈ s.trial, T.id < s.nextTrial ∧ .started T.id ∈ s.log
  driving : s.pc.leaving = false → ∀ T ∈ s.trial, T.phase = .drive →
    OwnDeadline s.log s.mcuBound T
  quiet : s.pc.quiet = true → ∀ T ∈ s.trial, T.phase ≠ .drive
  thread : PcOk s

theorem bounded_boot (stored : List TrialResult) : Bounded (boot stored : Server F) where
  ids := by intro T hT; cases hT
  driving := by intro _ T hT; cases hT
  quiet := by intro _ T hT; cases hT
  thread := trivial

/-- What a calm section leaves of the first three. -/
theorem Bounded.calm {s s' : Server F} (h : Bounded s) (hcalm : Calm s s') :
    (∀ T ∈ s'.trial, T.id < s'.nextTrial ∧ .started T.id ∈ s'.log) ∧
      (s.pc.leaving = false → ∀ T ∈ s'.trial, T.phase = .drive →
        OwnDeadline s'.log s'.mcuBound T) ∧
      ((∀ T ∈ s.trial, T.phase ≠ .drive) → ∀ T ∈ s'.trial, T.phase ≠ .drive) := by
  obtain ⟨new, hlog, hnew⟩ := hcalm.log
  refine ⟨?_, ?_, ?_⟩
  · intro T' hT'
    rcases hcalm.trial T' hT' with hstart | ⟨T, hT, hsame, -⟩
    · exact ⟨hstart.before, hstart.started⟩
    · obtain ⟨hid, hstarted⟩ := h.ids T hT
      rw [hsame.id, hlog]
      exact ⟨lt_of_lt_of_le hid hcalm.nextTrial, List.mem_append_right _ hstarted⟩
  · intro hleaving T' hT' hphase
    rcases hcalm.trial T' hT' with hstart | ⟨T, hT, hsame, hdrive⟩
    · exact absurd hphase hstart.phase
    · have hown := h.driving hleaving T hT (hdrive hphase)
      rw [hlog, hcalm.mcuBound]
      exact (hown.append (harmless_started hnew)).same hsame
  · intro hno T' hT' hphase
    rcases hcalm.trial T' hT' with hstart | ⟨T, hT, -, hdrive⟩
    · exact hstart.phase hphase
    · exact hno T hT (hdrive hphase)

omit [Double F] in
/-- An older trial with the number of a known one is that one. -/
theorem Calm.old {s s' : Server F} (hcalm : Calm s s') {id : ℕ} (hid : id < s.nextTrial)
    {T' : Trial F} (hT' : T' ∈ s'.trial) (hT'id : T'.id = id) :
    ∃ T ∈ s.trial, T.id = id ∧ SameTrial T T' := by
  rcases hcalm.trial T' hT' with hstart | ⟨T, hT, hsame, -⟩
  · have hafter := hstart.after
    omega
  · exact ⟨T, hT, hsame.id.symm.trans hT'id, hsame⟩

/-- Nor does a calm section touch what the thread relies on. -/
theorem PcOk.calm {s s' : Server F} (h : PcOk s) (hcalm : Calm s s') : PcOk s' := by
  obtain ⟨new, hlog, hnew⟩ := hcalm.log
  have hharmless := harmless_started hnew
  have hmode : lastMode s'.log = lastMode s.log := by
    rw [hlog]
    exact lastMode_append hharmless
  unfold PcOk at h ⊢
  rw [hcalm.pc]
  split
  · next body hpc =>
    rw [hpc] at h
    rw [hmode]
    exact h
  · next body hpc =>
    rw [hpc] at h
    rw [hmode]
    exact h
  · next id ms hpc =>
    rw [hpc] at h
    refine ⟨lt_of_lt_of_le h.1 hcalm.nextTrial, ?_⟩
    intro T' hT' hid
    obtain ⟨T, hT, hTid, hsame⟩ := hcalm.old h.1 hT' hid
    rw [boundMs_same hsame, bodyMeasurement_same hsame, hmode]
    exact h.2 T hT hTid
  · next id ms hpc =>
    rw [hpc] at h
    refine ⟨lt_of_lt_of_le h.1 hcalm.nextTrial, ?_⟩
    intro T' hT' hid
    obtain ⟨T, hT, hTid, hsame⟩ := hcalm.old h.1 hT' hid
    obtain ⟨hms, hbody, hwritten⟩ := h.2 T hT hTid
    rw [boundMs_same hsame, bodyMeasurement_same hsame, hmode, hlog]
    exact ⟨hms, hbody, (hwritten.append fun e he => (hharmless e he).1).same hsame⟩
  · next id hpc =>
    rw [hpc] at h
    refine ⟨lt_of_lt_of_le h.1 hcalm.nextTrial, ?_⟩
    intro T' hT' hid
    obtain ⟨T, hT, hTid, hsame⟩ := hcalm.old h.1 hT' hid
    rw [hlog, hcalm.mcuBound]
    exact ((h.2 T hT hTid).append hharmless).same hsame
  · next vx wz T hpc =>
    rw [hpc] at h
    rw [hlog, hcalm.mcuBound]
    exact OwnDeadline.append h hharmless
  · trivial

theorem Bounded.http {s s' : Server F} (h : Bounded s) (hcalm : Calm s s') : Bounded s' := by
  obtain ⟨hids, hdriving, hquiet⟩ := h.calm hcalm
  refine ⟨hids, ?_, ?_, h.thread.calm hcalm⟩
  · rw [hcalm.pc]
    exact hdriving
  · rw [hcalm.pc]
    exact fun hpc => hquiet (h.quiet hpc)

/-! ### The steps of the thread -/

variable {s : Server F} {now : F}

/-- Neither the trial nor the deadline changes, and the thread moves on. -/
theorem Bounded.move (h : Bounded s) {s' : Server F} (htrial : s'.trial = s.trial)
    (hnext : s'.nextTrial = s.nextTrial) (hlog : s'.log = s.log) (hbound : s'.mcuBound = s.mcuBound)
    (hleaving : s'.pc.leaving = false → s.pc.leaving = false)
    (hquiet : s'.pc.quiet = true → ∀ T ∈ s.trial, T.phase ≠ .drive) (hpc : PcOk s') :
    Bounded s' where
  ids := by
    rw [htrial, hnext, hlog]
    exact h.ids
  driving := by
    rw [htrial, hlog, hbound]
    exact fun hleft => h.driving (hleaving hleft)
  quiet := by
    rw [htrial]
    exact hquiet
  thread := hpc

/-- Only the program counter changes. -/
theorem Bounded.moveTo (h : Bounded s) {pc : Pc F}
    (hleaving : pc.leaving = false → s.pc.leaving = false)
    (hquiet : pc.quiet = true → ∀ T ∈ s.trial, T.phase ≠ .drive) (hpc : PcOk { s with pc }) :
    Bounded { s with pc } :=
  h.move rfl rfl rfl rfl hleaving hquiet hpc

/-- Without a trial there is nothing to drive. -/
theorem Bounded.calm_none (h : Bounded s) {s' : Server F} (hcalm : Calm s s')
    (htrial : s'.trial = none) {pc : Pc F} (hpc : PcOk { s' with pc }) :
    Bounded { s' with pc } where
  ids := (h.calm hcalm).1
  driving := by
    intro _ T hT
    have hnone : s'.trial = some T := hT
    rw [htrial] at hnone
    cases hnone
  quiet := by
    intro _ T hT
    have hnone : s'.trial = some T := hT
    rw [htrial] at hnone
    cases hnone
  thread := hpc

/-- A command that changes the deadline or the mode. -/
def Command.changes : Command F → Bool
  | .measure _ => true
  | command => command.setsDeadline

omit [Double F] in
theorem harmless_wrote {command : Command F} (h : command.changes = false) :
    Harmless [.wrote command] := by
  intro e he
  obtain rfl := List.mem_singleton.mp he
  cases command <;> simp_all [Command.changes, LinkEvent.setsDeadline, Command.setsDeadline]

omit [Double F] in
theorem clearsDeadline_of_changes {command : Command F} (h : command.changes = false) :
    command.clearsDeadline = false := by
  cases command <;> simp_all [Command.changes, Command.clearsDeadline, Command.setsDeadline]

/-- The thread goes on by itself. -/
def Event.goes : Event F → Bool
  | .thread _ .go => true
  | _ => false

/-- The mode that was sent, where the deadline is computed. -/
def Pc.sentMode : Pc F → Option Bool
  | .readTrial body => some body
  | _ => none

/-- A forced or a requested stop is carried out. -/
def Pc.halts (forceStop : Bool) : Pc F → Bool
  | .choose => forceStop
  | .send (.request asked) => (asked.command : Command F).clearsDeadline
  | _ => false

/-- What a step of the thread has to meet: the mode that was sent is that of the trial
the deadline will be for, and no stop is carried out once a later trial drives. -/
def Orderly (s : Server F) (e : Event F) : Prop :=
  e.goes = true →
    (∀ body ∈ s.pc.sentMode, ∀ T ∈ s.trial, bodyMeasurement (some T) = body) ∧
    (s.pc.halts s.forceStop = true → ∀ T ∈ s.trial, T.phase ≠ .drive)

instance (s : Server F) (e : Event F) : Decidable (Orderly s e) :=
  inferInstanceAs (Decidable (_ → (∀ _ ∈ s.pc.sentMode, ∀ _ ∈ s.trial, _) ∧
    (_ → ∀ _ ∈ s.trial, _)))

/-- No trial drives while the deadline or the mode is changed. -/
theorem Bounded.changes (h : Bounded s) {task : Task F} (hpc : s.pc = .send task)
    (horderly : Orderly s (.thread now .go)) (hchanges : task.command.changes = true)
    (hclosing : (Pc.await task : Pc F).leaving = false) : ∀ T ∈ s.trial, T.phase ≠ .drive := by
  have hquiet := h.quiet
  rw [hpc] at hquiet
  have hhalts := (horderly rfl).2
  rw [hpc] at hhalts
  cases task with
  | request asked =>
    refine hhalts ?_
    cases asked with
    | parameters line => cases hchanges
    | stop => rfl
    | calibrate => rfl
  | control motion trial =>
    cases motion with
    | stop => exact hquiet rfl
    | drive vx wz => cases hchanges
    | release => cases hchanges
  | closing => cases hclosing
  | heartbeat => cases hchanges
  | hello => exact hquiet rfl
  | measure body => exact hquiet rfl
  | bound trial ms => exact hquiet rfl
  | rejected => exact hquiet rfl

/-- A command is written. -/
theorem Bounded.write (h : Bounded s) {task : Task F} (hpc : s.pc = .send task)
    (horderly : Orderly s (.thread now .go)) :
    Bounded { s with
      pc := .await task, log := .wrote task.command :: s.log
      mcuBound := if task.command.clearsDeadline then none else s.mcuBound } where
  ids := by
    intro T hT
    obtain ⟨hid, hstarted⟩ := h.ids T hT
    exact ⟨hid, List.mem_cons_of_mem _ hstarted⟩
  driving := by
    intro hleaving T hT hdrive
    by_cases hchanges : task.command.changes = true
    · exact absurd hdrive (h.changes hpc horderly hchanges hleaving T hT)
    · have hchanges : task.command.changes = false := by simpa using hchanges
      have hleft : s.pc.leaving = false := by
        rw [hpc]
        cases task <;> first | rfl | cases hleaving
      have hown := (h.driving hleft T hT hdrive).append (harmless_wrote hchanges)
      rw [clearsDeadline_of_changes hchanges]
      exact hown
  quiet := by
    intro hquiet
    have hsend := h.quiet
    rw [hpc] at hsend
    cases task <;> first | exact hsend rfl | cases hquiet
  thread := by
    have hthread := h.thread
    rw [PcOk, hpc] at hthread
    cases task with
    | measure body => exact rfl
    | bound trial ms =>
      cases trial with
      | none => trivial
      | some id =>
        refine ⟨hthread.1, ?_⟩
        intro T hT hid
        obtain ⟨hms, hmode⟩ := hthread.2 T hT hid
        refine ⟨hms, hmode, [], s.log, ?_, by simp, (h.ids T hT).2⟩
        rw [hms]
        rfl
    | hello | heartbeat | control | rejected | request | closing => trivial

theorem Bounded.raise (h : Bounded s) (error : String) {task : Task F}
    (hpc : s.pc = .send task ∨ s.pc = .await task) : Bounded (raise s error task) := by
  have hleft : (task = .closing → False) → s.pc.leaving = false := by
    intro hne
    rcases hpc with hpc | hpc
    · rw [hpc]
      cases task <;> first | rfl | exact (hne rfl).elim
    · rw [hpc]
      cases task <;> first | rfl | exact (hne rfl).elim
  cases task with
  | closing => exact h.moveTo nofun nofun trivial
  | hello | heartbeat | measure | bound | control | rejected | request =>
    exact h.moveTo (fun _ => hleft (by intro heq; cases heq)) nofun trivial

/-- A reply is read. -/
theorem Bounded.resume (h : Bounded s) {task : Task F} (hpc : s.pc = .await task) (ok : Bool)
    (telemetry : Telemetry F) :
    Bounded (resume (receive s now ok telemetry) now ok telemetry task) := by
  obtain ⟨latest, received, hreceive⟩ := receive_frame s now ok telemetry
  rw [hreceive]
  have hmove {s' : Server F} (htrial : s'.trial = s.trial) (hnext : s'.nextTrial = s.nextTrial)
      (hlog : s'.log = s.log) (hbound : s'.mcuBound = s.mcuBound) (hleft : s.pc.leaving = false)
      (hquiet : s'.pc.quiet = true → s.pc.quiet = true) (hok : PcOk s') : Bounded s' :=
    h.move htrial hnext hlog hbound (fun _ => hleft) (fun hq => h.quiet (hquiet hq)) hok
  have hfailed (hleft : s.pc.leaving = false) (error : String) :
      Bounded { s with latest, received, pc := .failed error } :=
    hmove rfl rfl rfl rfl hleft (by intro hq; cases hq) trivial
  have hthread := h.thread
  rw [PcOk, hpc] at hthread
  have hleft : (task = .closing → False) → s.pc.leaving = false := by
    intro hne
    rw [hpc]
    cases task <;> first | rfl | exact (hne rfl).elim
  cases task with
  | hello =>
    rw [SerialLink.resume]
    split
    · exact hmove rfl rfl rfl rfl (hleft nofun) nofun trivial
    · exact hfailed (hleft nofun) _
  | heartbeat =>
    rw [SerialLink.resume]
    split
    · exact hmove rfl rfl rfl rfl (hleft nofun) nofun trivial
    · exact hfailed (hleft nofun) _
  | measure body =>
    rw [SerialLink.resume]
    split
    · refine hmove rfl rfl rfl rfl (hleft nofun) (fun _ => by rw [hpc]; rfl) ?_
      exact hthread
    · exact hfailed (hleft nofun) _
  | bound trial ms =>
    rw [SerialLink.resume]
    split
    · -- the deadline is accepted; nothing drives yet
      have hstill : ∀ T ∈ s.trial, T.phase ≠ .drive := h.quiet (by rw [hpc]; rfl)
      refine ⟨?_, ?_, nofun, ?_⟩
      · exact h.ids
      · intro _ T hT hdrive
        exact absurd hdrive (hstill T hT)
      · cases trial with
        | none => trivial
        | some id =>
          refine ⟨hthread.1, ?_⟩
          intro T hT hid
          obtain ⟨hms, hmode, hwritten⟩ := hthread.2 T hT hid
          exact ⟨hwritten, by rw [hms], hmode⟩
    · exact hfailed (hleft nofun) _
  | control motion trial =>
    rw [SerialLink.resume]
    cases ok <;>
      exact hmove rfl rfl rfl rfl (hleft nofun) nofun trivial
  | rejected => exact hmove rfl rfl rfl rfl (hleft nofun) nofun trivial
  | request asked =>
    exact hmove rfl rfl rfl rfl (hleft nofun) nofun trivial
  | closing =>
    exact h.move rfl rfl rfl rfl nofun nofun trivial

/-- The next command is chosen. -/
theorem Bounded.choose (h : Bounded s) (hpc : s.pc = .choose)
    (horderly : Orderly s (.thread now .go)) : Bounded (threadStep s now .go) := by
  have hcalm := chooseControl_calm s now
  have hchosen := chooseControl_chosen s now
  obtain ⟨hids, hdriving, hstill⟩ := h.calm hcalm
  have hdriving := hdriving (by rw [hpc]; rfl)
  have hhalts := (horderly rfl).2
  rw [hpc] at hhalts
  unfold threadStep
  rw [hpc]
  dsimp only
  generalize chooseControl s now = out at hchosen hcalm hids hdriving hstill ⊢
  obtain ⟨control, s'⟩ := out
  dsimp only at hchosen hcalm hids hdriving hstill ⊢
  cases hchosen with
  | nothing => exact ⟨hids, fun _ => hdriving, nofun, trivial⟩
  | release => exact ⟨hids, fun _ => hdriving, nofun, trivial⟩
  | prepare htrial hphase =>
    refine ⟨hids, fun _ => hdriving, ?_, trivial⟩
    intro _ T hT hdrive
    rw [htrial] at hT
    obtain rfl := Option.some.inj hT
    rw [hphase] at hdrive
    cases hdrive
  | stop hstop =>
    refine ⟨hids, fun _ => hdriving, ?_, trivial⟩
    intro _ T hT
    rcases hstop with hnone | hforced
    · rw [hnone] at hT
      cases hT
    · exact hstill (hhalts hforced) T hT
  | @drive _ vx wz harmed hpresent hphase =>
    refine ⟨hids, fun _ => hdriving, nofun, ?_⟩
    rcases htrial : s'.trial with _ | T
    · rw [PcOk]
      trivial
    · exact hdriving T htrial (hphase T htrial)

/-- The trial drives, if it is the one the deadline is for. -/
theorem Bounded.markDriving (h : Bounded s) {id : Option ℕ} (hpc : s.pc = .markDriving id) :
    Bounded { markDriving s now id with pc := .serve } := by
  have hthread := h.thread
  rw [PcOk, hpc] at hthread
  have hdriving := h.driving (by rw [hpc]; rfl)
  unfold SerialLink.markDriving
  split
  · exact h.moveTo (fun _ => by rw [hpc]; rfl) nofun trivial
  · next T htrial =>
    split
    · next hid =>
      subst hid
      refine ⟨?_, ?_, nofun, trivial⟩
      · intro T' hT'
        obtain rfl := Option.some.inj hT'
        exact h.ids T htrial
      · intro _ T' hT' _
        obtain rfl := Option.some.inj hT'
        exact (hthread.2 T htrial rfl).same ⟨rfl, rfl, rfl, rfl⟩
    · exact h.moveTo (fun _ => by rw [hpc]; rfl) nofun trivial

theorem Bounded.threadStep (h : Bounded s) (input : Input F)
    (horderly : Orderly s (.thread now input)) : Bounded (threadStep s now input) := by
  have hmove {pc pc' : Pc F} (hpc : s.pc = pc) (hleft : pc.leaving = false)
      (hquiet : pc'.quiet = false) (hok : PcOk { s with pc := pc' }) :
      Bounded { s with pc := pc' } := by
    refine h.moveTo (fun _ => by rw [hpc, hleft]) ?_ hok
    rw [hquiet]
    exact nofun
  have hchoose (hpc : s.pc = .choose) (hgo : Orderly s (.thread now .go)) :
      Bounded (SerialLink.threadStep s now .go) := h.choose hpc hgo
  unfold SerialLink.threadStep
  split
  · next task hpc => exact h.write hpc horderly
  · next task error hpc => exact h.raise error (.inl hpc)
  · next task ok telemetry hpc => exact h.resume hpc ok telemetry
  · next task error hpc => exact h.raise error (.inr hpc)
  · -- the handshake is over
    next hpc =>
    exact h.move rfl rfl rfl rfl (fun _ => by rw [hpc]; rfl) nofun trivial
  · next hpc =>
    split
    · exact hmove hpc rfl rfl trivial
    · split <;> exact hmove hpc rfl rfl trivial
  · next hpc =>
    have hchosen := hchoose hpc horderly
    unfold SerialLink.threadStep at hchosen
    rw [hpc] at hchosen
    exact hchosen
  · next hpc =>
    exact h.moveTo (fun _ => by rw [hpc]; rfl) (fun _ => h.quiet (by rw [hpc]; rfl)) trivial
  · -- the deadline of the active trial, in the mode that was sent
    next body hpc =>
    have hstill := h.quiet (by rw [hpc]; rfl)
    have hmode := h.thread
    rw [PcOk, hpc] at hmode
    have hsent := (horderly rfl).1
    rw [hpc] at hsent
    refine h.moveTo (fun _ => by rw [hpc]; rfl) (fun _ => hstill) ?_
    rcases htrial : s.trial with _ | T
    · trivial
    · refine ⟨(h.ids T htrial).1, ?_⟩
      intro T' hT' _
      obtain rfl := Option.some.inj hT'
      refine ⟨rfl, ?_⟩
      rw [hsent body rfl T htrial]
      exact hmode
  · next id hpc => exact h.markDriving hpc
  · exact h.calm_none (cancelOperator_kept s now).calm (cancelOperator_trial s now) trivial
  · next hpc =>
    split
    · exact hmove hpc rfl rfl trivial
    · next queued requests _ =>
      by_cases hexpired : queued.expiry ≤ now
      · rw [if_pos hexpired]
        exact h.move rfl rfl rfl rfl (fun _ => by rw [hpc]; rfl) nofun trivial
      · rw [if_neg hexpired]
        exact h.move rfl rfl rfl rfl (fun _ => by rw [hpc]; rfl) nofun trivial
  · next error hpc =>
    have hfinished : Calm s { finishTrial s now "serial connection failed" false with
        error := some error } :=
      (finishTrial_kept s _ false now).calm.trans (Calm.of_eq rfl rfl rfl rfl rfl rfl rfl)
    exact h.calm_none hfinished (finishTrial_trial s _ false now) trivial
  · next hpc => exact h.move rfl rfl rfl rfl nofun nofun trivial
  · exact h

/-- Every step that is in order keeps it. -/
theorem Bounded.step (h : Bounded s) {e : Event F} (horderly : Orderly s e) :
    Bounded (step s e) := by
  by_cases hthread : ∃ now input, e = .thread now input
  · obtain ⟨now, input, rfl⟩ := hthread
    exact h.threadStep input horderly
  · push Not at hthread
    by_cases hclose : e = .close
    · subst hclose
      exact h.move rfl rfl rfl rfl id h.quiet h.thread
    · exact h.http (step_calm s hthread hclose)

/-- The trial that a `drive` about to be written is for. -/
def Pc.drivenTrial : Pc F → Option (Trial F)
  | .send (.control (.drive _ _) trial) => trial
  | _ => none

/-- A `drive` of a trial is written under the trial's own deadline and in its own mode. -/
def DrivesUnderDeadline (s : Server F) : Event F → Prop
  | .thread _ .go => ∀ T ∈ s.pc.drivenTrial, OwnDeadline s.log s.mcuBound T
  | _ => True

theorem Bounded.drives (h : Bounded s) (e : Event F) : DrivesUnderDeadline s e := by
  unfold DrivesUnderDeadline
  split
  · intro T hT
    have hthread := h.thread
    unfold Pc.drivenTrial at hT
    split at hT
    · next vx wz trial hpc =>
      obtain rfl : trial = some T := hT
      rw [PcOk, hpc] at hthread
      exact hthread
    · cases hT
  · trivial

/-- In a run whose steps are in order every trial drives under its own deadline. -/
theorem drives_under_deadline (stored : List TrialResult) (es : List (Event F))
    (horderly : linkMachine.Always Orderly (boot stored) es) :
    linkMachine.Always DrivesUnderDeadline (boot stored) es :=
  Machine.always_of_guarded (fun _ _ h => h.step) (fun _ e h _ => h.drives e)
    (bounded_boot stored) horderly

end Deadline

/-! ### Runs -/

/-- A robot at rest with the features a trial needs. -/
def restTelemetry : Telemetry ℚ :=
  { protocol := 2, firmware := "base101-calibration", session := true, ready := true
    fault := false, atRest := true, motionEnabled := false, brakeOkMask := 15, mcuUs := 0
    parameters := trialParameters, features := ["metrics", "bounded_trial", "full_config"]
    yawFeedback := false, gyroFresh := true, gyroRate := 0, gyroYaw := 0
    wheelsFresh := [true, true, true, true] }

/-- The thread goes on by itself `n` times. -/
def goOn (now : ℚ) (n : ℕ) : List (Event ℚ) := List.replicate n (.thread now .go)

/-- A command is written and answered. -/
def exchange (now : ℚ) (telemetry : Telemetry ℚ) : List (Event ℚ) :=
  goOn now 1 ++ [.thread now (.reply true telemetry)]

/-- The handshake and the first heartbeat. -/
def connect : List (Event ℚ) :=
  exchange 0 restTelemetry ++ goOn 0 2 ++ exchange 0 restTelemetry

def operatorMessage (seq : ℤ) (recipe : String) : Message ℚ :=
  { client := some "operator-1", seq := some seq, vx := none, wz := none
    payload :=
      { recipe := some recipe, setupConfirmed := true, surface := some "wood", load := some ""
        step := some 0, verification := some false } }

def armAndStart (seq : ℤ) (recipe : String) : List (Event ℚ) :=
  [.operator 0 .arm (operatorMessage seq recipe),
    .operator 0 .trial (operatorMessage (seq + 1) recipe)]

/-- From the choice to prepare a trial until it may drive. -/
def prepare (now : ℚ) : List (Event ℚ) :=
  goOn now 2 ++ exchange now restTelemetry ++ goOn now 1 ++ exchange now restTelemetry ++
    goOn now 1

/-- Up to the `drive` of a trial. -/
def forwardRun : List (Event ℚ) :=
  connect ++ armAndStart 1 "forward" ++ prepare 0 ++ goOn 0 3

theorem drives_under_deadline_forward :
    linkMachine.Always DrivesUnderDeadline (boot []) (forwardRun ++ goOn 0 1) ∧
      (linkMachine.run (boot []) forwardRun).pc.drivenTrial.isSome = true := by
  refine ⟨drives_under_deadline [] _ ?_, ?_⟩ <;> decide +kernel

/-- A stop is requested before the trial and carried out after its deadline was set. -/
def lateStopRun : List (Event ℚ) :=
  connect ++ [.halt 0 false, .request 0 0] ++ armAndStart 1 "forward" ++ prepare 0 ++
    goOn 0 1 ++ exchange 0 restTelemetry ++ goOn 0 2

/-- The trial is stopped after `measure`, and another started before `bound`. -/
def foreignModeRun : List (Event ℚ) :=
  connect ++ armAndStart 1 "forward" ++ goOn 0 2 ++ exchange 0 restTelemetry ++
    [.halt 0 false] ++ armAndStart 3 "spin-0.2-CCW-1" ++ goOn 0 1 ++
    exchange 0 restTelemetry ++ goOn 0 4

/-- Neither `drive` is under the trial's own deadline and in its mode. -/
theorem deadline_lost :
    ¬linkMachine.Always DrivesUnderDeadline (boot []) (lateStopRun ++ goOn 0 1) ∧
      ¬linkMachine.Always DrivesUnderDeadline (boot []) (foreignModeRun ++ goOn 0 1) := by
  constructor
  · intro h
    have hlost : (linkMachine.run (boot []) lateStopRun).pc.drivenTrial.isSome = true ∧
        (linkMachine.run (boot []) lateStopRun).mcuBound = none := by decide +kernel
    obtain ⟨T, hT⟩ := Option.isSome_iff_exists.mp hlost.1
    have hown := h.last T hT
    have haccepted := hown.accepted
    rw [hlost.2] at haccepted
    cases haccepted
  · intro h
    have hforeign : (linkMachine.run (boot []) foreignModeRun).pc.drivenTrial.isSome = true ∧
        (∀ T ∈ (linkMachine.run (boot []) foreignModeRun).pc.drivenTrial,
          lastMode (linkMachine.run (boot []) foreignModeRun).log ≠
            some (bodyMeasurement (some T))) := by decide +kernel
    obtain ⟨T, hT⟩ := Option.isSome_iff_exists.mp hforeign.1
    exact hforeign.2 T hT (h.last T hT).mode

end SerialLink
