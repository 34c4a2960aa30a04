/-
What a section under the lock can do.

* `Calm` — it sends nothing, and a trial that drives afterwards drove before;
* `Ticked`, `Chosen` — the commands the serial thread chooses, each with the state it is
  chosen in;
* `operator_operated`, `chooseControl_calm`, `chooseControl_chosen` — every section is of
  this kind;
* `ledger` — the server's account of its trials; `step_steps`, `chooseControl_steps` — a
  section moves it by `Ledger.Step`s.
-/
import Base101.SerialLink
import Base101.TrialLedger

namespace SerialLink

open Double

/-! ### Calm sections -/

/-- The same trial, at another moment. -/
structure SameTrial {F : Type} (T T' : Trial F) : Prop where
  id : T'.id = T.id
  recipe : T'.recipe = T.recipe
  sequence : T'.sequence = T.sequence
  durationS : T'.durationS = T.durationS

theorem SameTrial.refl {F : Type} (T : Trial F) : SameTrial T T := ⟨rfl, rfl, rfl, rfl⟩

theorem SameTrial.trans {F : Type} {T T' T'' : Trial F} (h : SameTrial T T')
    (h' : SameTrial T' T'') : SameTrial T T'' :=
  ⟨h'.id.trans h.id, h'.recipe.trans h.recipe, h'.sequence.trans h.sequence,
    h'.durationS.trans h.durationS⟩

/-- A trial that has been started since `s` and does not drive yet. -/
structure NewTrial {F : Type} (s s' : Server F) (T : Trial F) : Prop where
  phase : T.phase ≠ .drive
  after : s.nextTrial ≤ T.id
  before : T.id < s'.nextTrial
  started : .started T.id ∈ s'.log

/-- Nothing was sent, and a trial that drives drove before. -/
structure Calm {F : Type} (s s' : Server F) : Prop where
  pc : s'.pc = s.pc
  done : s'.done = s.done
  ready : s'.ready = s.ready
  mcuBound : s'.mcuBound = s.mcuBound
  nextTrial : s.nextTrial ≤ s'.nextTrial
  log : ∃ new, s'.log = new ++ s.log ∧ ∀ e ∈ new, ∃ id, e = LinkEvent.started id
  trial : ∀ T' ∈ s'.trial, NewTrial s s' T' ∨
    ∃ T ∈ s.trial, SameTrial T T' ∧ (T'.phase = .drive → T.phase = .drive)

namespace Calm

variable {F : Type} {s s' s'' : Server F}

/-- Other fields may change. -/
theorem of_eq (hpc : s'.pc = s.pc) (hdone : s'.done = s.done) (hready : s'.ready = s.ready)
    (hbound : s'.mcuBound = s.mcuBound) (hnext : s'.nextTrial = s.nextTrial)
    (hlog : s'.log = s.log) (htrial : s'.trial = s.trial) : Calm s s' where
  pc := hpc
  done := hdone
  ready := hready
  mcuBound := hbound
  nextTrial := hnext.ge
  log := ⟨[], hlog, by simp⟩
  trial := by
    intro T' hT'
    rw [htrial] at hT'
    exact .inr ⟨T', hT', SameTrial.refl T', fun h => h⟩

theorem refl (s : Server F) : Calm s s := of_eq rfl rfl rfl rfl rfl rfl rfl

theorem trans (h : Calm s s') (h' : Calm s' s'') : Calm s s'' where
  pc := h'.pc.trans h.pc
  done := h'.done.trans h.done
  ready := h'.ready.trans h.ready
  mcuBound := h'.mcuBound.trans h.mcuBound
  nextTrial := h.nextTrial.trans h'.nextTrial
  log := by
    obtain ⟨new, hlog, hnew⟩ := h.log
    obtain ⟨new', hlog', hnew'⟩ := h'.log
    refine ⟨new' ++ new, by rw [hlog', hlog, List.append_assoc], ?_⟩
    intro e he
    rcases List.mem_append.mp he with he | he
    · exact hnew' e he
    · exact hnew e he
  trial := by
    intro T'' hT''
    rcases h'.trial T'' hT'' with hnew | ⟨T', hT', hsame', hdrive'⟩
    · exact .inl ⟨hnew.phase, h.nextTrial.trans hnew.after, hnew.before, hnew.started⟩
    rcases h.trial T' hT' with hnew | ⟨T, hT, hsame, hdrive⟩
    · left
      obtain ⟨new, hlog, -⟩ := h'.log
      refine ⟨fun hphase => hnew.phase (hdrive' hphase), ?_, ?_, ?_⟩
      · rw [hsame'.id]
        exact hnew.after
      · rw [hsame'.id]
        exact lt_of_lt_of_le hnew.before h'.nextTrial
      · rw [hsame'.id, hlog]
        exact List.mem_append_right _ hnew.started
    · exact .inr ⟨T, hT, hsame.trans hsame', fun hphase => hdrive (hdrive' hphase)⟩

/-- A trial that is dropped, or goes on without driving. -/
theorem of_trial (hpc : s'.pc = s.pc) (hdone : s'.done = s.done) (hready : s'.ready = s.ready)
    (hbound : s'.mcuBound = s.mcuBound) (hnext : s'.nextTrial = s.nextTrial)
    (hlog : s'.log = s.log)
    (htrial : ∀ T' ∈ s'.trial, ∃ T ∈ s.trial,
      SameTrial T T' ∧ (T'.phase = .drive → T.phase = .drive)) :
    Calm s s' where
  pc := hpc
  done := hdone
  ready := hready
  mcuBound := hbound
  nextTrial := hnext.ge
  log := ⟨[], hlog, by simp⟩
  trial := fun T' hT' => .inr (htrial T' hT')

end Calm

/-! ### The account of trials -/

def Trial.entry {F : Type} (T : Trial F) : Entry :=
  { id := T.id, recipe := T.recipe.id, sequence := T.sequence }

def Sequence.batch {F : Type} (seq : Sequence F) : Batch :=
  { id := seq.id, index := seq.index, recipes := seq.recipes }

/-- The server without motion, time and the port. -/
def ledger {F : Type} (s : Server F) : Ledger where
  trial := s.trial.map Trial.entry
  sequence := s.sequence.map Sequence.batch
  results := s.results
  persist := s.persist
  lastSequence := s.lastSequence
  ended := s.ended.map fun (seq, last) => (seq.batch, last)
  nextTrial := s.nextTrial
  nextSequence := s.nextSequence

theorem SameTrial.entry {F : Type} {T T' : Trial F} (h : SameTrial T T') :
    T'.entry = T.entry := by
  rw [Trial.entry, Trial.entry, h.id, h.recipe, h.sequence]

/-- Only the trial's moment changes. -/
theorem SameTrial.ledger {F : Type} {s : Server F} {T T' : Trial F} (htrial : s.trial = some T)
    (h : SameTrial T T') : SerialLink.ledger { s with trial := some T' } = SerialLink.ledger s := by
  have hentry : (some T').map Trial.entry = s.trial.map Trial.entry := by
    rw [htrial, Option.map_some, Option.map_some, h.entry]
  rw [SerialLink.ledger, SerialLink.ledger]
  dsimp only
  rw [hentry]

/-- The last reply confirms rest, after the release of the active trial. -/
def RestMeasured {F : Type} (s : Server F) : Prop :=
  (∃ T ∈ s.trial, T.phase = .settling) ∧
    ∃ status ∈ s.latest, status.atRest = true ∧ status.motionEnabled = false

section Account

variable {F : Type} (s : Server F) (reason : String) (complete : Bool)

theorem endSequence_ledger :
    ledger (endSequence s reason complete) = (ledger s).endSequence reason complete := by
  rcases hsequence : s.sequence with _ | seq <;>
    simp [endSequence, Ledger.endSequence, ledger, hsequence, Sequence.batch]

variable [Double F] (now : F)

theorem advanceSequence_ledger :
    ledger (advanceSequence s now reason complete) = (ledger s).advance reason complete := by
  rcases hsequence : s.sequence with _ | seq
  · simp [advanceSequence, Ledger.advance, ledger, hsequence]
  · have hbatch : (ledger s).sequence = some seq.batch := by simp [ledger, hsequence]
    have hnext : ledger { s with sequence := some { seq with index := seq.index + 1 } } =
        { ledger s with sequence := some { seq.batch with index := seq.index + 1 } } := rfl
    unfold advanceSequence Ledger.advance
    rw [hsequence, hbatch]
    show ledger (if !complete || seq.recipes.length ≤ seq.index + 1 then _ else _) =
      if !complete || seq.recipes.length ≤ seq.index + 1 then _ else _
    split
    · rw [Sequence.batch] at hnext ⊢
      dsimp only at hnext ⊢
      rw [← hnext, ← endSequence_ledger]
      rfl
    · exact hnext

variable {s reason complete}

theorem finishTrial_ledger {T : Trial F} (htrial : s.trial = some T) :
    ledger (finishTrial s now reason complete) =
      ((ledger s).add T.entry reason complete).advance reason complete := by
  unfold finishTrial
  rw [htrial]
  exact advanceSequence_ledger _ reason complete now

/-- A trial finishes, or a pause does; a trial is complete only where rest was measured. -/
theorem finishTrial_steps {measured : Prop}
    (hmeasured : complete = true → measured ∧ s.trial.isSome = true) :
    Ledger.Steps measured (ledger s) (ledger (finishTrial s now reason complete)) := by
  rcases htrial : s.trial with _ | T
  · have hbroken : complete = false := by
      rw [← Bool.not_eq_true]
      intro hcomplete
      have hsome := (hmeasured hcomplete).2
      rw [htrial] at hsome
      cases hsome
    have hend : finishTrial s now reason complete = endSequence s reason false := by
      unfold finishTrial
      rw [htrial, hbroken]
    rw [hend, endSequence_ledger]
    refine .single (.endSequence ?_)
    show s.trial.map Trial.entry = none
    rw [htrial]
    rfl
  · rw [finishTrial_ledger now htrial]
    refine .single (.finish ?_ fun hcomplete => (hmeasured hcomplete).1)
    show s.trial.map Trial.entry = some T.entry
    rw [htrial]
    rfl

end Account

/-! ### The end of a trial -/

/-- What the end of a trial or a sequence leaves alone. -/
structure Kept {F : Type} (s s' : Server F) : Prop where
  pc : s'.pc = s.pc
  done : s'.done = s.done
  ready : s'.ready = s.ready
  mcuBound : s'.mcuBound = s.mcuBound
  nextTrial : s'.nextTrial = s.nextTrial
  log : s'.log = s.log
  operatorClient : s'.operatorClient = s.operatorClient
  operatorSequence : s'.operatorSequence = s.operatorSequence
  intentUntil : s'.intentUntil = s.intentUntil
  message : s'.message = s.message
  renewed : s'.renewed = s.renewed
  forceStop : s'.forceStop = s.forceStop
  armed : s'.armed = true → s.armed = true
  trial : s'.trial = none ∨ s'.trial = s.trial
  sequence : s'.sequence.isSome → s.sequence.isSome

namespace Kept

variable {F : Type} {s s' s'' : Server F}

theorem refl (s : Server F) : Kept s s :=
  ⟨rfl, rfl, rfl, rfl, rfl, rfl, rfl, rfl, rfl, rfl, rfl, rfl, id, .inr rfl, id⟩

theorem trans (h : Kept s s') (h' : Kept s' s'') : Kept s s'' where
  pc := h'.pc.trans h.pc
  done := h'.done.trans h.done
  ready := h'.ready.trans h.ready
  mcuBound := h'.mcuBound.trans h.mcuBound
  nextTrial := h'.nextTrial.trans h.nextTrial
  log := h'.log.trans h.log
  operatorClient := h'.operatorClient.trans h.operatorClient
  operatorSequence := h'.operatorSequence.trans h.operatorSequence
  intentUntil := h'.intentUntil.trans h.intentUntil
  message := h'.message.trans h.message
  renewed := h'.renewed.trans h.renewed
  forceStop := h'.forceStop.trans h.forceStop
  armed := fun harmed => h.armed (h'.armed harmed)
  trial := by
    rcases h'.trial with hnone | hsame
    · exact .inl hnone
    · rw [hsame]
      exact h.trial
  sequence := fun hsequence => h.sequence (h'.sequence hsequence)

theorem calm (h : Kept s s') : Calm s s' := by
  refine Calm.of_trial h.pc h.done h.ready h.mcuBound h.nextTrial h.log ?_
  intro T hT
  rcases h.trial with hnone | hsame
  · rw [hnone] at hT
    cases hT
  · rw [hsame] at hT
    exact ⟨T, hT, SameTrial.refl T, id⟩

/-- Without arms. -/
theorem disarm (h : Kept s s') : Kept s { s' with armed := false } :=
  { h with armed := fun harmed => by cases harmed }

end Kept

section Ending

variable {F : Type} (s : Server F) (reason : String) (complete : Bool)

theorem endSequence_kept : Kept s (endSequence s reason complete) := by
  rw [endSequence]
  split
  · exact Kept.refl s
  · exact { Kept.refl s with sequence := fun h => by cases h }

theorem endSequence_trial : (endSequence s reason complete).trial = s.trial := by
  rw [endSequence]
  split <;> rfl

theorem endSequence_sequence : (endSequence s reason complete).sequence = none := by
  rw [endSequence]
  split
  · assumption
  · rfl

variable [Double F] (now : F)

theorem advanceSequence_kept : Kept s (advanceSequence s now reason complete) := by
  rw [advanceSequence]
  split
  · exact Kept.refl s
  · next seq hsequence =>
    dsimp only
    split
    · have hindex : Kept s { s with sequence := some { seq with index := seq.index + 1 } } :=
        { Kept.refl s with sequence := fun _ => by rw [hsequence]; rfl }
      exact (hindex.trans (endSequence_kept _ reason complete)).disarm
    · exact { Kept.refl s with sequence := fun _ => by rw [hsequence]; rfl }

theorem advanceSequence_trial : (advanceSequence s now reason complete).trial = s.trial := by
  rw [advanceSequence]
  split
  · rfl
  · dsimp only
    split
    · exact endSequence_trial _ reason complete
    · rfl

/-- A trial that was broken off takes the sequence with it. -/
theorem advanceSequence_broken : (advanceSequence s now reason false).sequence = none := by
  rw [advanceSequence]
  split
  · assumption
  · dsimp only
    rw [if_pos (by rfl)]
    exact endSequence_sequence _ reason false

theorem finishTrial_trial : (finishTrial s now reason complete).trial = none := by
  rw [finishTrial]
  split
  · next h => rw [endSequence_trial, h]
  · rw [advanceSequence_trial]

theorem finishTrial_broken : (finishTrial s now reason false).sequence = none := by
  rw [finishTrial]
  split
  · exact endSequence_sequence s reason false
  · exact advanceSequence_broken _ reason now

theorem finishTrial_kept : Kept s (finishTrial s now reason complete) := by
  rw [finishTrial]
  split
  · exact endSequence_kept s reason complete
  · next trial htrial =>
    have hdropped : Kept s
        { addResult s (trial.result reason complete) with trial := none, intent := none } :=
      { Kept.refl s with trial := .inl rfl }
    exact hdropped.trans (advanceSequence_kept _ reason complete now)

theorem cancelOperator_kept : Kept s (cancelOperator s now) := by
  have hfinish : Kept s
      (if s.trial.isSome then finishTrial s now "stopped by operator" false else s) := by
    split
    · exact finishTrial_kept s _ _ now
    · exact Kept.refl s
  have hend := hfinish.trans (endSequence_kept _ "stopped by operator" false)
  rw [cancelOperator]
  exact { hend with armed := fun harmed => by cases harmed }

theorem cancelOperator_trial : (cancelOperator s now).trial = none := by
  have hfinish : (if s.trial.isSome then finishTrial s now "stopped by operator" false
      else s).trial = none := by
    split
    · exact finishTrial_trial s _ _ now
    · next h => simpa using h
  rw [cancelOperator]
  exact (endSequence_trial _ _ _).trans hfinish

theorem cancelOperator_steps {measured : Prop} :
    Ledger.Steps measured (ledger s) (ledger (cancelOperator s now)) := by
  set s' := if s.trial.isSome then finishTrial s now "stopped by operator" false else s with hs'
  have hfinish : Ledger.Steps measured (ledger s) (ledger s') ∧ s'.trial = none := by
    rw [hs']
    split
    · exact ⟨finishTrial_steps now (by simp), finishTrial_trial s _ _ now⟩
    · next h => exact ⟨.refl, by simpa using h⟩
  have hend : ledger (cancelOperator s now) =
      (ledger s').endSequence "stopped by operator" false := by
    rw [cancelOperator, ← endSequence_ledger]
    rfl
  rw [hend]
  refine hfinish.1.tail (.endSequence ?_)
  show s'.trial.map Trial.entry = none
  rw [hfinish.2]
  rfl

end Ending

/-! ### The start of a trial -/

section Ticks

variable {F : Type} [Double F] {s : Server F} {now : F}

theorem byId_id {id : String} {r : Recipe F} (h : byId id = some r) : r.id = id := by
  rw [byId] at h
  simpa using List.find?_some h

/-- What the checks of a trial establish. -/
theorem validateTrial_ok {p : Payload} {recipe : Recipe F} {current : Telemetry F}
    (h : validateTrial s p = .ok (recipe, current)) :
    p.recipe = some recipe.id ∧ s.armed = true ∧ s.trial = none := by
  unfold validateTrial at h
  split at h
  · cases h
  · next id hid =>
    split at h
    · cases h
    · cases h
    · next found _ hfound _ =>
      dsimp only at h
      split at h
      · cases h
      next hidle =>
      simp only [Bool.or_eq_true, not_or, Bool.not_eq_true', Bool.not_eq_false,
        Bool.not_eq_true, Option.isSome_eq_false_iff, Option.isNone_iff_eq_none] at hidle
      have hrecipe : recipe = found := by
        repeat' split at h
        all_goals first | cases h; done | exact (congrArg Prod.fst (Except.ok.inj h)).symm
      rw [hid, hrecipe, byId_id hfound]
      exact ⟨rfl, hidle.1.1.1, hidle.1.1.2⟩

/-- The state after the start of a trial. -/
theorem startTrial_ok {p : Payload} {s' : Server F} (h : startTrial s now p = .ok s') :
    ∃ T : Trial F, (T.id = s.nextTrial ∧ T.phase = .preparing ∧ p.recipe = some T.recipe.id ∧
        T.sequence = s.sequence.map fun seq => (seq.id, seq.index)) ∧
      s.armed = true ∧ s.trial = none ∧
      s' = { s with
        trial := some T, intentUntil := now + trialPresenceTimeoutS
        nextTrial := s.nextTrial + 1, log := .started s.nextTrial :: s.log } := by
  rw [startTrial] at h
  cases hvalid : validateTrial s p with
  | error e =>
    rw [hvalid] at h
    cases h
  | ok found =>
    obtain ⟨recipe, current⟩ := found
    rw [hvalid] at h
    obtain ⟨hrecipe, harmed, htrial⟩ := validateTrial_ok hvalid
    exact ⟨_, ⟨rfl, rfl, hrecipe, rfl⟩, harmed, htrial, (Except.ok.inj h).symm⟩

/-- Alone, or as the next trial of the sequence. -/
theorem startTrial_steps {p : Payload} {s' : Server F} {measured : Prop}
    (h : startTrial s now p = .ok s')
    (hnext : ∀ seq ∈ s.sequence, p.recipe = seq.recipes[seq.index]?) :
    Ledger.Steps measured (ledger s) (ledger s') := by
  obtain ⟨T, ⟨hid, -, hrecipe, hsequence⟩, -, htrial, rfl⟩ := startTrial_ok h
  have hentry : T.entry =
      { id := s.nextTrial, recipe := T.recipe.id
        sequence := (ledger s).sequence.map fun b => (b.id, b.index) } := by
    rw [Trial.entry, hid, hsequence]
    congr 1
    show _ = (s.sequence.map Sequence.batch).map _
    rw [Option.map_map]
    rfl
  have hstart : ledger { s with
        trial := some T, intentUntil := now + trialPresenceTimeoutS
        nextTrial := s.nextTrial + 1, log := .started s.nextTrial :: s.log } =
      (ledger s).start T.recipe.id := by
    rw [Ledger.start]
    show { ledger s with trial := some T.entry, nextTrial := s.nextTrial + 1 } = _
    rw [hentry]
    rfl
  rw [hstart]
  refine .single (.start ?_ ?_)
  · show s.trial.map Trial.entry = none
    rw [htrial]
    rfl
  · intro b hb
    obtain ⟨seq, hseq, rfl⟩ := Option.map_eq_some_iff.mp hb
    rw [← hrecipe]
    exact (hnext seq hseq).symm

theorem startTrial_calm {p : Payload} {s' : Server F} (h : startTrial s now p = .ok s') :
    Calm s s' := by
  obtain ⟨T, ⟨hid, hphase, -⟩, -, -, rfl⟩ := startTrial_ok h
  refine ⟨rfl, rfl, rfl, rfl, Nat.le_succ _, ⟨[.started s.nextTrial], rfl, by simp⟩, ?_⟩
  intro T' hT'
  obtain rfl := Option.some.inj hT'
  left
  refine ⟨by rw [hphase]; simp, hid.ge, hid ▸ Nat.lt_succ_self _, ?_⟩
  rw [hid]
  exact List.mem_cons_self

/-! ### The ticks -/

/-- What a sequence between two subtests does. -/
inductive SequenceTicked (s : Server F) (now : F) : Option (Control F) → Server F → Prop
  | idle (hpresent : s.trial = none → s.sequence ≠ none → presenceFailure s now = none) :
      SequenceTicked s now none s
  | stop {s' : Server F} (hkept : Kept s s') (htrial : s'.trial = none)
      (hsequence : s'.sequence = none)
      (hsteps : ∀ measured, Ledger.Steps measured (ledger s) (ledger s')) :
      SequenceTicked s now (some (.send .stop)) s'
  | start {p : Payload} {s' : Server F} {seq : Sequence F} (hstart : startTrial s now p = .ok s')
      (htrial : s.trial = none) (hsequence : s.sequence = some seq)
      (hrecipe : p.recipe = seq.recipes[seq.index]?) (hpresent : presenceFailure s now = none) :
      SequenceTicked s now none { s' with renewed := some now }

theorem sequenceFailure_none {seq : Sequence F} (h : sequenceFailure s now seq = none) :
    presenceFailure s now = none := by
  rw [sequenceFailure] at h
  cases hpresent : presenceFailure s now with
  | none => rfl
  | some reason =>
    rw [hpresent] at h
    cases h

theorem sequenceTick_ticked (s : Server F) (now : F) :
    SequenceTicked s now (sequenceTick s now).1 (sequenceTick s now).2 := by
  have hended (reason : String) (htrial : s.trial = none) :
      Kept s (endSequence s reason false) ∧ (endSequence s reason false).trial = none ∧
        (endSequence s reason false).sequence = none ∧
        ∀ measured, Ledger.Steps measured (ledger s) (ledger (endSequence s reason false)) := by
    refine ⟨endSequence_kept s reason false, (endSequence_trial s reason false).trans htrial,
      endSequence_sequence s reason false, ?_⟩
    intro measured
    rw [endSequence_ledger]
    refine .single (.endSequence ?_)
    show s.trial.map Trial.entry = none
    rw [htrial]
    rfl
  rw [sequenceTick]
  split
  · next htrial hsequence =>
    split
    · next reason hfailure =>
      obtain ⟨hkept, htrial', hsequence', hsteps⟩ := hended reason htrial
      exact .stop { hkept.disarm with } htrial' hsequence' hsteps
    · next hfailure =>
      have hidle : SequenceTicked s now none s := .idle fun _ _ => sequenceFailure_none hfailure
      split
      · exact hidle
      · split
        · split
          · obtain ⟨hkept, htrial', hsequence', hsteps⟩ :=
              hended "brakes/rest not acknowledged between subtests" htrial
            exact .stop { hkept.disarm with } htrial' hsequence' hsteps
          · exact hidle
        · split
          · next hstart =>
            exact .start hstart htrial hsequence rfl (sequenceFailure_none hfailure)
          · next reason hstart =>
            obtain ⟨hkept, htrial', hsequence', hsteps⟩ := hended reason htrial
            exact .stop { hkept.disarm with } htrial' hsequence' hsteps
  · next hno =>
    refine .idle fun htrial hsequence => ?_
    obtain ⟨seq, hseq⟩ := Option.ne_none_iff_exists'.mp hsequence
    exact (hno seq htrial hseq).elim

/-- What the tick of a trial does. -/
inductive TrialTicked (s : Server F) (now : F) : Option (Control F) → Server F → Prop
  | idle (htrial : s.trial = none) : TrialTicked s now none s
  /-- Without presence the sequence ends too. -/
  | stop {s' : Server F} (hkept : Kept s s') (htrial : s'.trial = none)
      (hbroken : presenceFailure s now ≠ none → s'.sequence = none)
      (hsteps : Ledger.Steps (RestMeasured s) (ledger s) (ledger s')) :
      TrialTicked s now (some (.send .stop)) s'
  | prepare {T : Trial F} (htrial : s.trial = some T) (hphase : T.phase = .preparing)
      (hpresent : presenceFailure s now = none) : TrialTicked s now (some .prepareTrial) s
  | release {T T' : Trial F} (htrial : s.trial = some T) (hsame : SameTrial T T')
      (hphase : T'.phase ≠ .drive) (hpresent : presenceFailure s now = none) :
      TrialTicked s now (some (.send .release)) { s with trial := some T', intent := none }
  | settle {T T' : Trial F} (htrial : s.trial = some T) (hsame : SameTrial T T')
      (hphase : T'.phase ≠ .drive) (hpresent : presenceFailure s now = none) :
      TrialTicked s now none { s with trial := some T', intent := none }
  | drive {T T' : Trial F} {intent : Option (F × F)} (htrial : s.trial = some T)
      (hsame : SameTrial T T') (hphase : T.phase = .drive) (hphase' : T'.phase = .drive)
      (hpresent : presenceFailure s now = none) :
      TrialTicked s now none { s with trial := some T', intent }

theorem abortTrial_ticked (s : Server F) (now : F) (reason : String) :
    TrialTicked s now (abortTrial s now reason).1 (abortTrial s now reason).2 := by
  have hkept : Kept s { finishTrial s now reason false with armed := false } :=
    { (finishTrial_kept s reason false now).disarm with }
  exact .stop hkept (finishTrial_trial s reason false now)
    (fun _ => finishTrial_broken s reason now) (finishTrial_steps now (by simp))

/-- The end of the tick, the trial's clock having been read. -/
theorem motionTick_ticked {T : Trial F} {status : Telemetry F} {mcu : ℤ}
    (htrial : s.trial = some T) (hlatest : s.latest = some status)
    (hphase : T.phase ≠ .preparing) (hpresent : presenceFailure s now = none) :
    TrialTicked s now
      (motionTick { s with trial := some { T with lastMcu := mcu } } now { T with lastMcu := mcu }
        status).1
      (motionTick { s with trial := some { T with lastMcu := mcu } } now { T with lastMcu := mcu }
        status).2 := by
  have hsame : SameTrial T { T with lastMcu := mcu } := ⟨rfl, rfl, rfl, rfl⟩
  rw [motionTick]
  dsimp only
  split
  · -- the stages are over, or the target is near
    split
    · exact .release htrial ⟨rfl, rfl, rfl, rfl⟩ (by simp) hpresent
    · next hdrive =>
      -- every way to finish drops the trial
      have hfinish (reason : String) (complete : Bool)
          (hmeasured : complete = true → RestMeasured s) :
          let s' : Server F := { s with trial := some { T with lastMcu := mcu }, intent := none }
          Kept s (finishTrial s' now reason complete) ∧
            (finishTrial s' now reason complete).trial = none ∧
            Ledger.Steps (RestMeasured s) (ledger s)
              (ledger (finishTrial s' now reason complete)) := by
        intro s'
        have htrial' := finishTrial_trial s' reason complete now
        have hledger : ledger s' = ledger s := SameTrial.ledger htrial hsame
        refine ⟨{ finishTrial_kept s' reason complete now with trial := .inl htrial' }, htrial', ?_⟩
        rw [← hledger]
        exact finishTrial_steps now fun hcomplete => ⟨hmeasured hcomplete, rfl⟩
      have hno : presenceFailure s now ≠ none → False := fun h => h hpresent
      split
      · next hrest =>
        have hsettling : T.phase = .settling := by
          cases hT : T.phase with
          | preparing => exact absurd hT hphase
          | drive => exact absurd hT hdrive
          | settling => rfl
        have hmeasured : RestMeasured s := by
          refine ⟨⟨T, htrial, hsettling⟩, status, hlatest, ?_⟩
          simpa using hrest
        obtain ⟨hkept, htrial', hsteps⟩ := hfinish "completed" true fun _ => hmeasured
        split
        · exact .stop { hkept.disarm with } htrial' (fun h => (hno h).elim) hsteps
        · exact .stop hkept htrial' (fun h => (hno h).elim) hsteps
      · split
        · obtain ⟨hkept, htrial', hsteps⟩ :=
            hfinish "rest not acknowledged within three seconds" false (by simp)
          exact .stop { hkept.disarm with } htrial' (fun h => (hno h).elim) hsteps
        · exact .settle htrial hsame hdrive hpresent
  · next hdue =>
    have hdrive : T.phase = .drive := by
      cases hT : T.phase with
      | preparing => exact absurd hT hphase
      | drive => rfl
      | settling => exact absurd (.inr (.inr hT)) hdue
    exact .drive htrial hsame hdrive hdrive hpresent

theorem trialTick_ticked (s : Server F) (now : F) :
    TrialTicked s now (trialTick s now).1 (trialTick s now).2 := by
  rw [trialTick]
  split
  · next htrial => exact .idle htrial
  · next T htrial =>
    split
    · exact abortTrial_ticked s now _
    · exact abortTrial_ticked s now _
    · next status hpresent hlatest =>
      split
      · exact abortTrial_ticked s now _
      · split
        · next hphase => exact .prepare htrial hphase hpresent
        · next hphase =>
          split
          · exact abortTrial_ticked s now _
          · exact motionTick_ticked htrial hlatest hphase hpresent

/-- What both ticks leave behind, by the command they ask for. -/
inductive Ticked (now : F) : Option (Control F) → Server F → Prop
  | idle {s : Server F} (htrial : s.trial = none) : Ticked now none s
  | stop {s : Server F} (htrial : s.trial = none) : Ticked now (some (.send .stop)) s
  | prepare {s : Server F} {T : Trial F} (htrial : s.trial = some T)
      (hphase : T.phase = .preparing) : Ticked now (some .prepareTrial) s
  | release {s : Server F} : Ticked now (some (.send .release)) s
  | settle {s : Server F} (hintent : s.intent = none) : Ticked now none s
  | drive {s : Server F} {T : Trial F} (htrial : s.trial = some T) (hphase : T.phase = .drive)
      (hpresent : presenceFailure s now = none) : Ticked now none s

theorem TrialTicked.ticked {control : Option (Control F)} {s' : Server F}
    (h : TrialTicked s now control s') : Ticked now control s' := by
  cases h with
  | idle htrial => exact .idle htrial
  | stop hkept htrial hbroken hsteps => exact .stop htrial
  | prepare htrial hphase hpresent => exact .prepare htrial hphase
  | release => exact .release
  | settle => exact .settle rfl
  | drive htrial hsame hphase hphase' hpresent => exact .drive rfl hphase' hpresent

theorem ticks_ticked (s : Server F) (now : F) : Ticked now (ticks s now).1 (ticks s now).2 := by
  have hsequence := sequenceTick_ticked s now
  rw [ticks]
  generalize sequenceTick s now = out at hsequence
  obtain ⟨control, s'⟩ := out
  cases hsequence with
  | stop hkept htrial hended hsteps => exact .stop htrial
  | idle => exact (trialTick_ticked _ now).ticked
  | start => exact (trialTick_ticked _ now).ticked

theorem TrialTicked.calm {control : Option (Control F)} {s' : Server F}
    (h : TrialTicked s now control s') : Calm s s' := by
  have hmove {T T' : Trial F} {intent : Option (F × F)} (htrial : s.trial = some T)
      (hsame : SameTrial T T') (hphase : T'.phase = .drive → T.phase = .drive) :
      Calm s { s with trial := some T', intent } := by
    refine Calm.of_trial rfl rfl rfl rfl rfl rfl ?_
    intro T'' hT''
    obtain rfl := Option.some.inj hT''
    exact ⟨T, htrial, hsame, hphase⟩
  cases h with
  | idle htrial => exact Calm.refl s
  | stop hkept htrial hbroken hsteps => exact hkept.calm
  | prepare htrial hphase hpresent => exact Calm.refl s
  | release htrial hsame hphase hpresent => exact hmove htrial hsame fun h => absurd h hphase
  | settle htrial hsame hphase hpresent => exact hmove htrial hsame fun h => absurd h hphase
  | drive htrial hsame hphase hphase' hpresent => exact hmove htrial hsame fun _ => hphase

theorem ticks_calm (s : Server F) (now : F) : Calm s (ticks s now).2 := by
  have hsequence := sequenceTick_ticked s now
  rw [ticks]
  generalize sequenceTick s now = out at hsequence
  obtain ⟨control, s'⟩ := out
  cases hsequence with
  | stop hkept htrial hended hsteps => exact hkept.calm
  | idle => exact (trialTick_ticked _ now).calm
  | @start p s' seq hstart htrial hsequence hrecipe hpresent =>
    have hrenewed : Calm s' { s' with renewed := some now } :=
      Calm.of_eq rfl rfl rfl rfl rfl rfl rfl
    have hstarted := (startTrial_calm hstart).trans hrenewed
    exact hstarted.trans (trialTick_ticked _ now).calm

theorem TrialTicked.steps {control : Option (Control F)} {s' : Server F}
    (h : TrialTicked s now control s') :
    Ledger.Steps (RestMeasured s) (ledger s) (ledger s') := by
  have hmove {T T' : Trial F} {intent : Option (F × F)} (htrial : s.trial = some T)
      (hsame : SameTrial T T') :
      Ledger.Steps (RestMeasured s) (ledger s) (ledger { s with trial := some T', intent }) := by
    have hledger : ledger { s with trial := some T', intent } = ledger s :=
      hsame.ledger (s := { s with intent }) htrial
    rw [hledger]
    exact .refl
  cases h with
  | idle htrial => exact .refl
  | stop hkept htrial hbroken hsteps => exact hsteps
  | prepare htrial hphase hpresent => exact .refl
  | release htrial hsame hphase hpresent => exact hmove htrial hsame
  | settle htrial hsame hphase hpresent => exact hmove htrial hsame
  | drive htrial hsame hphase hphase' hpresent => exact hmove htrial hsame

theorem ticks_steps (s : Server F) (now : F) :
    Ledger.Steps (RestMeasured s) (ledger s) (ledger (ticks s now).2) := by
  have hsequence := sequenceTick_ticked s now
  rw [ticks]
  generalize sequenceTick s now = out at hsequence
  obtain ⟨control, s'⟩ := out
  cases hsequence with
  | stop hkept htrial hended hsteps => exact hsteps _
  | idle => exact (trialTick_ticked _ now).steps
  | @start p s' seq hstart htrial hsequence hrecipe hpresent =>
    have hfirst : Ledger.Steps (RestMeasured s) (ledger s) (ledger s') := by
      refine startTrial_steps hstart ?_
      intro seq' hseq'
      rw [hsequence] at hseq'
      obtain rfl := Option.some.inj hseq'
      exact hrecipe
    -- a trial that has just started has not been released
    have hmeasured : ¬RestMeasured { s' with renewed := some now } := by
      rintro ⟨⟨T, hT, hsettling⟩, -⟩
      obtain ⟨T', ⟨-, hphase, -⟩, -, -, rfl⟩ := startTrial_ok hstart
      obtain rfl := Option.some.inj hT
      rw [hphase] at hsettling
      cases hsettling
    have hsecond : Ledger.Steps (RestMeasured s) (ledger s')
        (ledger (trialTick { s' with renewed := some now } now).2) :=
      (trialTick_ticked { s' with renewed := some now } now).steps.mono fun h => (hmeasured h).elim
    exact hfirst.trans hsecond

/-! ### The choice -/

/-- The command that is chosen, and the state it is chosen in. -/
inductive Chosen (forced : Bool) (now : F) : Option (Control F) → Server F → Prop
  | nothing {s : Server F} : Chosen forced now none s
  | prepare {s : Server F} {T : Trial F} (htrial : s.trial = some T)
      (hphase : T.phase = .preparing) : Chosen forced now (some .prepareTrial) s
  | release {s : Server F} : Chosen forced now (some (.send .release)) s
  | stop {s : Server F} (h : s.trial = none ∨ forced = true) :
      Chosen forced now (some (.send .stop)) s
  | drive {s : Server F} {vx wz : F} (harmed : s.armed = true) (hpresent : ¬s.intentUntil ≤ now)
      (hphase : ∀ T ∈ s.trial, T.phase = .drive) :
      Chosen forced now (some (.send (.drive vx wz))) s

theorem presenceFailure_none (h : presenceFailure s now = none) :
    s.armed = true ∧ ¬s.intentUntil ≤ now := by
  rw [presenceFailure] at h
  split at h
  · cases h
  · next harmed =>
    split at h
    · cases h
    · next huntil => exact ⟨by simpa using harmed, huntil⟩

/-- A drive is chosen in the drive phase only, or without a trial. -/
theorem driveTick_chosen {control : Option (Control F)} (h : Ticked now control s)
    (forced : Bool) :
    Chosen forced now (driveTick s now control).1 (driveTick s now control).2 := by
  have hphase (hintent : s.intent ≠ none) (hnone : control = none) :
      ∀ T ∈ s.trial, T.phase = .drive ∧ presenceFailure s now = none := by
    intro T hT
    cases h with
    | idle htrial =>
      rw [htrial] at hT
      cases hT
    | stop => cases hnone
    | prepare => cases hnone
    | release => cases hnone
    | settle hsettled => exact absurd hsettled hintent
    | drive htrial hdrive hpresent =>
      rw [htrial] at hT
      obtain rfl := Option.some.inj hT
      exact ⟨hdrive, hpresent⟩
  unfold driveTick
  split
  · next vx wz hintent =>
    have hdriving := hphase (by rw [hintent]; simp) rfl
    split
    · next harmed =>
      split
      · next huntil =>
        refine .stop (.inl ?_)
        -- a trial that drives has passed the same check
        rcases htrial : s.trial with _ | T
        · rfl
        · have hpresent := (presenceFailure_none (hdriving T htrial).2).2
          exact absurd huntil hpresent
      · next huntil =>
        split
        · exact .drive harmed huntil fun T hT => (hdriving T hT).1
        · exact .nothing
    · split
      · exact .release
      · exact .nothing
  · split
    · exact .release
    · exact .nothing
  · cases h with
    | stop htrial => exact .stop (.inl htrial)
    | prepare htrial hprepare => exact .prepare htrial hprepare
    | release => exact .release

theorem driveTick_frame (s : Server F) (now : F) (control : Option (Control F)) :
    ∃ armed intent nextDrive releasePending,
      (driveTick s now control).2 = { s with armed, intent, nextDrive, releasePending } ∧
        (armed = true → s.armed = true) := by
  unfold driveTick
  split
  · split
    · split
      · exact ⟨_, _, _, _, rfl, fun harmed => absurd harmed (by simp)⟩
      · split
        · exact ⟨_, _, _, _, rfl, id⟩
        · exact ⟨_, _, _, _, rfl, id⟩
    · split
      · exact ⟨_, _, _, _, rfl, id⟩
      · exact ⟨_, _, _, _, rfl, id⟩
  · split
    · exact ⟨_, _, _, _, rfl, id⟩
    · exact ⟨_, _, _, _, rfl, id⟩
  · exact ⟨_, _, _, _, rfl, id⟩

theorem idleDisarm_frame (s : Server F) (now : F) :
    ∃ armed, idleDisarm s now = { s with armed } ∧ (armed = true → s.armed = true) := by
  rw [idleDisarm]
  split
  · exact ⟨_, rfl, fun harmed => absurd harmed (by simp)⟩
  · exact ⟨_, rfl, id⟩

omit [Double F] in
theorem forcedStop_frame (out : Option (Control F) × Server F) :
    ∃ forceStop, (forcedStop out).2 = { out.2 with forceStop } := by
  rw [forcedStop]
  split
  · exact ⟨_, rfl⟩
  · exact ⟨_, rfl⟩

/-- After the ticks a choice changes five fields, and arms nothing. -/
theorem chooseControl_frame (s : Server F) (now : F) :
    ∃ armed intent nextDrive releasePending forceStop,
      (chooseControl s now).2 = { (ticks s now).2 with
        armed, intent, nextDrive, releasePending, forceStop } ∧
      (armed = true → (ticks s now).2.armed = true) := by
  obtain ⟨forceStop, hforced⟩ := forcedStop_frame (ticks s now)
  obtain ⟨armed, hidle, harmed⟩ := idleDisarm_frame (forcedStop (ticks s now)).2 now
  obtain ⟨armed', intent, nextDrive, releasePending, hdrive, harmed'⟩ :=
    driveTick_frame (idleDisarm (forcedStop (ticks s now)).2 now) now (forcedStop (ticks s now)).1
  rw [hidle, hforced] at hdrive harmed'
  rw [hforced] at harmed
  refine ⟨armed', intent, nextDrive, releasePending, forceStop, ?_, ?_⟩
  · rw [chooseControl]
    dsimp only
    rw [hidle, hforced]
    exact hdrive
  · intro h
    exact harmed (harmed' h)

theorem chooseControl_calm (s : Server F) (now : F) : Calm s (chooseControl s now).2 := by
  obtain ⟨armed, intent, nextDrive, releasePending, forceStop, hchosen, -⟩ :=
    chooseControl_frame s now
  rw [hchosen]
  exact (ticks_calm s now).trans (Calm.of_eq rfl rfl rfl rfl rfl rfl rfl)

theorem chooseControl_steps (s : Server F) (now : F) :
    Ledger.Steps (RestMeasured s) (ledger s) (ledger (chooseControl s now).2) := by
  obtain ⟨armed, intent, nextDrive, releasePending, forceStop, hchosen, -⟩ :=
    chooseControl_frame s now
  rw [hchosen]
  exact ticks_steps s now

/-- Controls that are disarmed are idle. -/
theorem Ticked.idleDisarm {control : Option (Control F)} (h : Ticked now control s) :
    Ticked now control (SerialLink.idleDisarm s now) := by
  rw [SerialLink.idleDisarm]
  split
  · next hidle =>
    have hintent : s.intent = none := by
      simp only [Bool.and_eq_true, Option.isNone_iff_eq_none] at hidle
      exact hidle.1.2
    cases h with
    | idle htrial => exact .idle htrial
    | stop htrial => exact .stop htrial
    | prepare htrial hphase => exact .prepare htrial hphase
    | release => exact .release
    | settle => exact .settle hintent
    | drive => exact .settle hintent
  · exact h

theorem TrialTicked.forceStop {control : Option (Control F)} {s' : Server F}
    (h : TrialTicked s now control s') : s'.forceStop = s.forceStop := by
  cases h with
  | stop hkept htrial hbroken hsteps => exact hkept.forceStop
  | idle | prepare | release | settle | drive => rfl

theorem ticks_forceStop (s : Server F) (now : F) :
    (ticks s now).2.forceStop = s.forceStop := by
  have hsequence := sequenceTick_ticked s now
  rw [ticks]
  generalize sequenceTick s now = out at hsequence
  obtain ⟨control, s'⟩ := out
  cases hsequence with
  | stop hkept htrial hended hsteps => exact hkept.forceStop
  | idle => exact (trialTick_ticked _ now).forceStop
  | start hstart htrial hsequence hrecipe hpresent =>
    obtain ⟨T, -, -, -, rfl⟩ := startTrial_ok hstart
    exact (trialTick_ticked _ now).forceStop

theorem chooseControl_chosen (s : Server F) (now : F) :
    Chosen s.forceStop now (chooseControl s now).1 (chooseControl s now).2 := by
  have hticked := ticks_ticked s now
  have hforce := ticks_forceStop s now
  rw [chooseControl, forcedStop]
  generalize ticks s now = out at hticked hforce
  obtain ⟨control, s'⟩ := out
  dsimp only at hticked hforce ⊢
  split
  · next hforced =>
    rw [hforce] at hforced
    unfold driveTick
    exact .stop (.inr hforced)
  · exact driveTick_chosen hticked.idleDisarm s.forceStop

/-! ### Operator messages -/

/-- A message was noted: its number, its time and, of disarmed controls, its client. -/
def Noted (s s' : Server F) : Prop :=
  ∃ client seq seen, s' = { s with
      operatorClient := client, operatorSequence := seq, operatorSeen := seen } ∧
    (client = s.operatorClient ∨ s.armed = false)

omit [Double F] in
theorem Noted.refl (s : Server F) : Noted s s := ⟨_, _, _, rfl, .inl rfl⟩

/-- What a trial starts in: the server as it is, or with a new sequence. -/
inductive Begun (s : Server F) : Payload → Server F → Prop
  | single {p : Payload} (hsequence : s.sequence = none) : Begun s p s
  | sequence {p : Payload} {seq : Sequence F} (htrial : s.trial = none)
      (hsequence : s.sequence = none) (hid : seq.id = s.nextSequence) (hindex : seq.index = 0)
      (hne : seq.recipes ≠ []) (hlength : seq.recipes.length ≤ resultsKept)
      (hrecipe : p.recipe = seq.recipes.head?) :
      Begun s p { s with sequence := some seq, nextSequence := s.nextSequence + 1 }

/-- What an operator message leaves behind. -/
inductive Operated (s : Server F) (now : F) (action : Action) : Server F → Prop
  | refused {s' : Server F} (h : Noted s s') : Operated s now action s'
  /-- Manual control ends a trial and its sequence. -/
  | takeover {s' s'' : Server F} (h : Noted s s') (hkept : Kept s' s'')
      (htrial : s''.trial = none) (hsequence : s''.sequence = none)
      (hsteps : Ledger.Steps False (ledger s') (ledger s'')) :
      Operated s now action { s'' with
        armed := false, intent := none, releasePending := false, forceStop := true }
  | manual {s' : Server F} (armed : Bool) (intent : Option (F × F)) (intentUntil : F)
      (releasePending : Bool) (h : Noted s s') (htrial : s'.trial = none)
      (hsequence : s'.sequence = none) :
      Operated s now action { s' with armed, intent, intentUntil, releasePending }
  | presence {s' : Server F} {client : String} (h : Noted s s')
      (howner : s'.operatorClient = some client) :
      Operated s now action
        (present { s' with intentUntil := now + trialPresenceTimeoutS } now client)
  | started {s' s₁ s'' : Server F} {p : Payload} {client : String} (h : Noted s s')
      (howner : s'.operatorClient = some client) (haction : action = .trial ∨ action = .sequence)
      (hbegun : Begun s' p s₁) (hstart : startTrial s₁ now p = .ok s'') :
      Operated s now action (present s'' now client)

/-- What an action leaves behind. -/
inductive Acted (s : Server F) (now : F) (action : Action) : Server F × Except String Unit → Prop
  | refused {e : String} : Acted s now action (s, .error e)
  | manual (armed : Bool) (intent : Option (F × F)) (intentUntil : F) (releasePending : Bool)
      (h : action = .arm ∨ action = .drive ∨ action = .release) :
      Acted s now action ({ s with armed, intent, intentUntil, releasePending }, .ok ())
  | presence (h : action = .presence) :
      Acted s now action ({ s with intentUntil := now + trialPresenceTimeoutS }, .ok ())
  | started {p : Payload} {s₁ s' : Server F} (h : action = .trial ∨ action = .sequence)
      (hbegun : Begun s p s₁) (hstart : startTrial s₁ now p = .ok s') :
      Acted s now action (s', .ok ())

/-- The checks of a trial do not look at the sequence. -/
theorem startTrial_valid (now : F) {seq : Option (Sequence F)} {next : ℕ} {p : Payload}
    {found : Recipe F × Telemetry F} (h : validateTrial s p = .ok found) :
    ∃ s', startTrial { s with sequence := seq, nextSequence := next } now p = .ok s' := by
  have hvalid : validateTrial { s with sequence := seq, nextSequence := next } p = .ok found := h
  rw [startTrial, hvalid]
  exact ⟨_, rfl⟩

variable (F) in
/-- A sequence is shorter than the list of results. -/
theorem subtests_length (step : ℤ) (verification : Bool) :
    (subtests F step verification).length ≤ resultsKept := by
  have hlength : (recipes (F := F)).length = 38 := rfl
  have hfilter : (subtests F step verification).length ≤ (recipes (F := F)).length :=
    List.length_filterMap_le ..
  unfold resultsKept
  omega

/-- The first of a list that was mapped without an error. -/
theorem mapM_head {α β ε : Type} {f : α → Except ε β} {a : α} {l : List α} {bs : List β}
    (h : (a :: l).mapM f = .ok bs) : ∃ b, f a = .ok b := by
  rw [List.mapM_cons] at h
  cases hf : f a with
  | error e =>
    rw [hf] at h
    cases h
  | ok b => exact ⟨b, rfl⟩

theorem startSequence_acted (s : Server F) (now : F) (p : Payload) :
    Acted s now .sequence (startSequence s now p) := by
  unfold startSequence
  split
  · split
    · exact .refused
    · split
      · exact .refused
      · next step verification _ _ _ hidle =>
        have hidle : s.sequence = none ∧ s.trial = none := by simpa using hidle
        have hlength := subtests_length F step verification
        generalize subtests F step verification = ids at hlength ⊢
        dsimp only
        split
        · exact .refused
        · next hne =>
          split
          · exact .refused
          · exact .refused
          · next current hvalid hlatest =>
            have hbegun : Begun s { p with recipe := ids.head? } { s with
                sequence := some ⟨s.nextSequence, 0, ids, p, current.parameters, 0⟩
                nextSequence := s.nextSequence + 1 } :=
              .sequence hidle.2 hidle.1 rfl rfl hne hlength rfl
            -- the first subtest has been checked already
            obtain ⟨id, ids, rfl⟩ := List.exists_cons_of_ne_nil hne
            obtain ⟨found, hfound⟩ := mapM_head hvalid
            split
            · next e herror =>
              obtain ⟨s', hstart⟩ := startTrial_valid now hfound
              have hhead : (id :: ids).head? = some id := rfl
              rw [hhead, hstart] at herror
              cases herror
            · next hstart => exact .started (.inr rfl) hbegun hstart
  · exact .refused

theorem act_acted (s : Server F) (now : F) (action : Action) (m : Message F) :
    Acted s now action (act s now action m) := by
  cases action with
  | sequence => exact startSequence_acted s now m.payload
  | trial =>
    rw [act]
    split
    · exact .refused
    · next hsequence =>
      split
      · exact .refused
      · next hstart => exact .started (.inl rfl) (.single (by simpa using hsequence)) hstart
  | presence =>
    rw [act]
    split
    · exact .refused
    · exact .presence rfl
  | arm =>
    rw [act]
    split
    · exact .refused
    · split
      · exact .refused
      · exact .manual true s.intent s.intentUntil s.releasePending (.inl rfl)
  | drive =>
    rw [act]
    split
    · split
      · exact .refused
      · exact .manual s.armed _ _ false (.inr (.inl rfl))
    · exact .refused
  | release => exact .manual s.armed none s.intentUntil true (.inr (.inr rfl))

omit [Double F] in
theorem Noted.note {s' : Server F} (h : Noted s s') (seq : ℤ) (seen : F) :
    Noted s { s' with operatorSequence := seq, operatorSeen := seen } := by
  obtain ⟨client, -, -, rfl, howner⟩ := h
  exact ⟨client, seq, seen, rfl, howner⟩

theorem performAction_operated {s' : Server F} {client : String} (hnoted : Noted s s')
    (hclient : s'.operatorClient = some client) (action : Action) (m : Message F) :
    Operated s now action (performAction s' now action client m).1 := by
  rw [performAction]
  split
  · exact .refused hnoted
  split
  · -- a manual action while something runs
    exact .takeover hnoted (finishTrial_kept s' _ false now) (finishTrial_trial s' _ false now)
      (finishTrial_broken s' _ now) (finishTrial_steps now (by simp))
  next hfree =>
  have hacted := act_acted s' now action m
  generalize act s' now action m = out at hacted
  cases hacted with
  | refused => exact .refused hnoted
  | manual armed intent intentUntil releasePending haction =>
    have hidle : s'.trial = none ∧ s'.sequence = none := by
      have hnone : (s'.trial.isSome || s'.sequence.isSome) = false := by
        rw [← Bool.not_eq_true]
        exact fun hrunning => hfree ⟨hrunning, haction⟩
      simpa using hnone
    dsimp only
    rw [if_neg (by rcases haction with rfl | rfl | rfl <;> simp)]
    exact .manual armed intent intentUntil releasePending hnoted hidle.1 hidle.2
  | presence haction =>
    dsimp only
    rw [if_pos (by simp [haction])]
    exact .presence hnoted hclient
  | started haction hbegun hstart =>
    dsimp only
    rw [if_pos (by rcases haction with rfl | rfl <;> simp)]
    exact .started hnoted hclient haction hbegun hstart

omit [Double F] in
/-- A message that is noted, and one that is not. -/
theorem accept_noted (s : Server F) (now : F) (action : Action) (client : String) (seq : ℤ) :
    Noted s (accept s now action client seq).1 ∧
      ((accept s now action client seq).2 = .ok () →
        (accept s now action client seq).1.operatorClient = some client) := by
  rw [accept]
  dsimp only
  split
  · exact ⟨Noted.refl s, nofun⟩
  split
  · exact ⟨Noted.refl s, nofun⟩
  split
  · exact ⟨Noted.refl s, nofun⟩
  next howner =>
  have hclaimed : Noted s (if s.operatorClient ≠ some client then
        { s with operatorClient := some client, operatorSequence := -1 } else s) ∧
      (if s.operatorClient ≠ some client then
        { s with operatorClient := some client, operatorSequence := -1 } else s).operatorClient =
        some client := by
    split
    · next hother =>
      refine ⟨⟨some client, -1, s.operatorSeen, rfl, .inr ?_⟩, rfl⟩
      by_contra harmed
      exact howner ⟨hother, .inr (by simpa using harmed)⟩
    · next hsame => exact ⟨Noted.refl s, not_not.mp hsame⟩
  generalize (if s.operatorClient ≠ some client then
    { s with operatorClient := some client, operatorSequence := -1 } else s) = s' at hclaimed ⊢
  obtain ⟨hnoted, hclient⟩ := hclaimed
  split
  · exact ⟨hnoted, nofun⟩
  · exact ⟨hnoted.note seq now, fun _ => hclient⟩

theorem operatorLocked_operated (s : Server F) (now : F) (action : Action) (client : String)
    (seq : ℤ) (m : Message F) :
    Operated s now action (operatorLocked s now action client seq m).1 := by
  obtain ⟨hnoted, hclient⟩ := accept_noted s now action client seq
  rw [operatorLocked]
  generalize accept s now action client seq = out at hnoted hclient
  obtain ⟨s', e | _⟩ := out
  · exact .refused hnoted
  · exact performAction_operated hnoted (hclient rfl) action m

theorem operator_operated (s : Server F) (now : F) (action : Action) (m : Message F) :
    Operated s now action (operator s now action m).1 := by
  rw [operator]
  split
  · exact .refused (Noted.refl s)
  · exact operatorLocked_operated s now action _ _ m

/-- Without a connection nothing is taken. -/
theorem operator_notReady (h : s.ready = false) (now : F) (action : Action) (m : Message F) :
    (operator s now action m).1 = s := by
  rw [operator]
  split
  · rfl
  · next client seq _ =>
    have haccept : ∃ e, accept s now action client seq = (s, .error e) := by
      rw [accept]
      dsimp only
      split
      · exact ⟨_, rfl⟩
      · rw [if_pos (by rw [h]; rfl)]
        exact ⟨_, rfl⟩
    obtain ⟨e, haccept⟩ := haccept
    rw [operatorLocked, haccept]

theorem Operated.calm {action : Action} {s' : Server F} (h : Operated s now action s') :
    Calm s s' := by
  have hnote {s' : Server F} (h : Noted s s') : Calm s s' := by
    obtain ⟨client, seq, seen, rfl, -⟩ := h
    exact Calm.of_eq rfl rfl rfl rfl rfl rfl rfl
  cases h with
  | refused h => exact hnote h
  | takeover h hkept htrial hsequence hsteps =>
    exact (hnote h).trans (hkept.calm.trans (Calm.of_eq rfl rfl rfl rfl rfl rfl rfl))
  | manual armed intent intentUntil releasePending h =>
    exact (hnote h).trans (Calm.of_eq rfl rfl rfl rfl rfl rfl rfl)
  | presence h => exact (hnote h).trans (Calm.of_eq rfl rfl rfl rfl rfl rfl rfl)
  | @started s₀ s₁ s₂ p client h howner haction hbegun hstart =>
    have hset : Calm s₀ s₁ := by
      cases hbegun <;> exact Calm.of_eq rfl rfl rfl rfl rfl rfl rfl
    have hpresent : Calm s₂ (present s₂ now client) := Calm.of_eq rfl rfl rfl rfl rfl rfl rfl
    exact ((hnote h).trans hset).trans ((startTrial_calm hstart).trans hpresent)

/-- A sequence and its first trial begin together. -/
theorem Begun.steps {p : Payload} {s₁ s' : Server F} (h : Begun s p s₁)
    (hstart : startTrial s₁ now p = .ok s') : Ledger.Steps False (ledger s) (ledger s') := by
  cases h with
  | single hsequence =>
    refine startTrial_steps hstart ?_
    intro seq hseq
    rw [hsequence] at hseq
    cases hseq
  | @sequence seq htrial hsequence hid hindex hne hlength hrecipe =>
    have hbegin : ledger { s with sequence := some seq, nextSequence := s.nextSequence + 1 } =
        (ledger s).beginSequence seq.recipes := by
      have hbatch : seq.batch = { id := s.nextSequence, index := 0, recipes := seq.recipes } := by
        rw [Sequence.batch, hid, hindex]
      show { ledger s with
        sequence := some seq.batch, nextSequence := s.nextSequence + 1 } = _
      rw [hbatch]
      rfl
    have hfirst : Ledger.Steps False (ledger s)
        (ledger { s with sequence := some seq, nextSequence := s.nextSequence + 1 }) := by
      rw [hbegin]
      refine .single (.beginSequence ?_ ?_ hne hlength)
      · show s.trial.map Trial.entry = none
        rw [htrial]
        rfl
      · show s.sequence.map Sequence.batch = none
        rw [hsequence]
        rfl
    refine hfirst.trans (startTrial_steps hstart ?_)
    intro seq' hseq'
    obtain rfl := Option.some.inj hseq'
    rw [hrecipe, hindex, List.head?_eq_getElem?]

theorem Operated.steps {action : Action} {s' : Server F} (h : Operated s now action s') :
    Ledger.Steps False (ledger s) (ledger s') := by
  have hnote {s' : Server F} (h : Noted s s') : ledger s' = ledger s := by
    obtain ⟨client, seq, seen, rfl, -⟩ := h
    rfl
  cases h with
  | refused h =>
    rw [hnote h]
    exact .refl
  | takeover h hkept htrial hsequence hsteps =>
    rw [← hnote h]
    exact hsteps
  | manual armed intent intentUntil releasePending h =>
    rw [← hnote h]
    exact .refl
  | presence h =>
    rw [← hnote h]
    exact .refl
  | started h howner haction hbegun hstart =>
    rw [← hnote h]
    have hsteps := hbegun.steps hstart
    exact hsteps

/-! ### The other calls -/

/-- Every HTTP call is calm. -/
theorem step_calm (s : Server F) {e : Event F} (he : ∀ now input, e ≠ .thread now input)
    (hclose : e ≠ .close) : Calm s (step s e) := by
  cases e with
  | operator now action message => exact (operator_operated s now action message).calm
  | halt now calibrate =>
    exact (cancelOperator_kept s now).calm.trans (Calm.of_eq rfl rfl rfl rfl rfl rfl rfl)
  | parameters line full =>
    rw [step]
    split
    · exact Calm.refl s
    · split
      · exact Calm.refl s
      · exact Calm.of_eq rfl rfl rfl rfl rfl rfl rfl
  | request now handler =>
    rw [step, queueRequest]
    split
    · exact Calm.refl s
    · dsimp only
      split <;> exact Calm.of_eq rfl rfl rfl rfl rfl rfl rfl
  | saveBegin now =>
    rw [step, beginSave]
    split
    · exact Calm.refl s
    · split
      · exact Calm.refl s
      · exact Calm.of_eq rfl rfl rfl rfl rfl rfl rfl
  | saveEnd => exact Calm.of_eq rfl rfl rfl rfl rfl rfl rfl
  | close => exact absurd rfl hclose
  | thread now input => exact absurd rfl (he now input)

/-- And none of them completes a trial. -/
theorem step_steps (s : Server F) {e : Event F} (he : ∀ now input, e ≠ .thread now input) :
    Ledger.Steps False (ledger s) (ledger (step s e)) := by
  cases e with
  | operator now action message => exact (operator_operated s now action message).steps
  | halt now calibrate => exact cancelOperator_steps s now
  | parameters line full =>
    rw [step]
    split
    · exact .refl
    · split <;> exact .refl
  | request now handler =>
    rw [step, queueRequest]
    split
    · exact .refl
    · dsimp only
      split <;> exact .refl
  | saveBegin now =>
    rw [step, beginSave]
    split
    · exact .refl
    · split <;> exact .refl
  | saveEnd => exact .refl
  | close => exact .refl
  | thread now input => exact absurd rfl (he now input)

/-! ### A step of the thread -/

/-- What one step of the thread does: it goes on to another task, or carries out a section
under the lock. -/
inductive Threaded (s : Server F) (now : F) (input : Input F) : Server F → Prop
  /-- A frame is written, a reply read or a request taken. -/
  | goesOn (pc : Pc F) (ready : Bool) (latest : Option (Telemetry F)) (received : Option F)
      (nextHeartbeat nextDrive : F) (requests : List (Queued F)) (mcuBound : Option ℤ)
      (log : List (LinkEvent F)) :
      Threaded s now input { s with
        pc, ready, latest, received, nextHeartbeat, nextDrive, requests, mcuBound, log }
  | chosen (hpc : s.pc = .choose) (hgo : input = .go) (pc : Pc F) :
      Threaded s now input { (chooseControl s now).2 with pc }
  | driving {T : Trial F} (htrial : s.trial = some T) :
      Threaded s now input { s with
        trial := some { T with phase := .drive, started := now }, pc := .serve }
  | cancelled :
      Threaded s now input { cancelOperator s now with pc := .send .rejected }
  | failed (error : String) :
      Threaded s now input { finishTrial s now "serial connection failed" false with
        error := some error, pc := .closing }
  | closing :
      Threaded s now input { s with
        ready := false, armed := false, intent := none, pc := .send .closing }

omit [Double F] in
/-- A reply that is read changes nothing but the telemetry. -/
theorem receive_frame (s : Server F) (now : F) (ok : Bool) (telemetry : Telemetry F) :
    ∃ latest received, receive s now ok telemetry = { s with latest, received } := by
  rw [receive]
  split
  · exact ⟨_, _, rfl⟩
  · exact ⟨_, _, rfl⟩

theorem threadStep_threaded (s : Server F) (now : F) (input : Input F) :
    Threaded s now input (threadStep s now input) := by
  have hsame {pc : Pc F} {input : Input F} : Threaded s now input { s with pc } :=
    .goesOn pc _ _ _ _ _ _ _ _
  have hraise (error : String) (task : Task F) {input : Input F} :
      Threaded s now input (raise s error task) := by
    cases task <;> exact hsame
  unfold threadStep
  split
  · exact .goesOn _ _ _ _ _ _ _ _ _
  · next task error _ => exact hraise error task
  · -- a reply is read
    next task ok telemetry _ =>
    obtain ⟨latest, received, hreceive⟩ := receive_frame s now ok telemetry
    rw [hreceive]
    unfold resume
    split <;> (try split) <;> exact .goesOn _ _ _ _ _ _ _ _ _
  · next task error _ => exact hraise error task
  · exact .goesOn _ _ _ _ _ _ _ _ _
  · split
    · exact hsame
    · split <;> exact hsame
  · next hpc => exact .chosen hpc rfl _
  · exact hsame
  · exact hsame
  · -- the deadline was accepted for the trial that is active now, or for another one
    unfold markDriving
    split
    · exact hsame
    · next T htrial =>
      split
      · exact .driving htrial
      · exact hsame
  · exact .cancelled
  · split
    · exact hsame
    · exact .goesOn _ _ _ _ _ _ _ _ _
  · exact .failed _
  · exact .closing
  · exact .goesOn _ _ _ _ _ _ _ _ _

end Ticks

end SerialLink
