/-
What a command, a stop and a tick of the motor terminal can do.

`CommandStep` lists the effects of a command line, with the conditions the source tests
for each; `Emits` says what was sent and printed on the way from one state to another.
Nothing here depends on the arithmetic.

* `command_step` — every command line has one of the listed effects;
* `stop_halts` — what a stop leaves behind, with every online wheel braked by a braking one;
* `sendWheels_cases` — the loop over the wheels completes or ends in a fault.
-/
import Base101.Latch
import Base101.MotorTerminal
import Base101.WheelsBraking

namespace TerminalLine

variable {F : Type}

/-- The four messages of a fault. -/
def isFault : TerminalLine F → Bool
  | .profileFault _ | .speedFault | .replyFault _ | .motorFault _ _ => true
  | _ => false

/-- The two of them that a motor causes. -/
def isMotorFault : TerminalLine F → Bool
  | .replyFault _ | .motorFault _ _ => true
  | _ => false

theorem isFault_of_motor {l : TerminalLine F} (h : l.isMotorFault = true) : l.isFault = true := by
  cases l <;> first | rfl | cases h

/-- The answer of a `clear` that is accepted. -/
def isCleared : TerminalLine F → Bool
  | .text s => s == "OK cleared; stopped"
  | _ => false

/-- The answer of a `run` that is accepted. -/
def isRan : TerminalLine F → Bool
  | .ran _ _ _ => true
  | _ => false

/-- An answer that says nothing about faults. -/
def Plain (l : TerminalLine F) : Prop := l.isFault = false ∧ l.isCleared = false

theorem plain_text {t : String} (h : (t == "OK cleared; stopped") = false) :
    (TerminalLine.text t : TerminalLine F).Plain := ⟨rfl, h⟩

theorem isCleared_text : (TerminalLine.text "OK cleared; stopped" : TerminalLine F).isCleared := by
  rw [isCleared, beq_self_eq_true]

theorem plain_settings : (TerminalLine.settings : TerminalLine F).Plain := ⟨rfl, rfl⟩

theorem plain_help : (TerminalLine.help : TerminalLine F).Plain := ⟨rfl, rfl⟩

end TerminalLine

namespace TerminalOutput

variable {F : Type}

def isFault : TerminalOutput F → Bool
  | .line l => l.isFault
  | .sent _ _ => false

def isCleared : TerminalOutput F → Bool
  | .line l => l.isCleared
  | .sent _ _ => false

def isRan : TerminalOutput F → Bool
  | .line l => l.isRan
  | .sent _ _ => false

/-- A frame that sets a motor in motion. -/
def isMotion : TerminalOutput F → Bool
  | .sent _ (.velocity _ _) => true
  | _ => false

/-- A brake frame or a plain line. -/
structure Quiet (o : TerminalOutput F) : Prop where
  motion : o.isMotion = false
  fault : o.isFault = false
  cleared : o.isCleared = false

theorem quiet_brake (i : Fin 4) : (TerminalOutput.sent i .brake : TerminalOutput F).Quiet :=
  ⟨rfl, rfl, rfl⟩

theorem quiet_line {l : TerminalLine F} (h : l.Plain) : (TerminalOutput.line l).Quiet :=
  ⟨rfl, h.1, h.2⟩

end TerminalOutput

namespace MotorTerminal

open Double

variable {F : Type}

/-! ### What is sent and printed -/

/-- The last frame sent to a wheel. -/
def lastSent (output : List (TerminalOutput F)) (i : Fin 4) : Option Frame :=
  output.findSome? fun
    | .sent j frame => if j = i then some frame else none
    | .line _ => none

theorem lastSent_line (l : TerminalLine F) (output : List (TerminalOutput F)) (i : Fin 4) :
    lastSent (.line l :: output) i = lastSent output i := rfl

theorem lastSent_sent (j : Fin 4) (frame : Frame) (output : List (TerminalOutput F)) (i : Fin 4) :
    lastSent (.sent j frame :: output) i = if j = i then some frame else lastSent output i := by
  unfold lastSent
  rw [List.findSome?_cons]
  by_cases h : j = i
  · simp [h]
  · simp [h]

/-- Quiet output cannot set a braked wheel in motion again. -/
theorem lastSent_append {new output : List (TerminalOutput F)} {i : Fin 4}
    (h : ∀ o ∈ new, o.isMotion = false) (hi : lastSent output i = some .brake) :
    lastSent (new ++ output) i = some .brake := by
  induction new with
  | nil => exact hi
  | cons o new ih =>
    have hrest := ih fun o ho => h o (List.mem_cons_of_mem _ ho)
    have ho := h o List.mem_cons_self
    match o with
    | .line l => rw [List.cons_append, lastSent_line, hrest]
    | .sent j .brake => rw [List.cons_append, lastSent_sent, hrest, ite_self]
    | .sent j (.velocity u r) => cases ho

/-- What was added to the output satisfies `P`, and the same wheels are online. -/
structure Emits (P : TerminalOutput F → Prop) (s s' : MotorTerminal F) : Prop where
  output : ∃ new, s'.output = new ++ s.output ∧ ∀ o ∈ new, P o
  online : s'.online = s.online

section Emits

variable {P Q : TerminalOutput F → Prop} {s s' s'' : MotorTerminal F}

theorem Emits.of_eq (h : s'.output = s.output) (honline : s'.online = s.online) : Emits P s s' :=
  ⟨⟨[], h, fun _ ho => absurd ho List.not_mem_nil⟩, honline⟩

theorem Emits.refl (s : MotorTerminal F) : Emits P s s := .of_eq rfl rfl

theorem Emits.trans (h : Emits P s s') (h' : Emits P s' s'') : Emits P s s'' := by
  obtain ⟨new, hnew, hP⟩ := h.output
  obtain ⟨new', hnew', hP'⟩ := h'.output
  refine ⟨⟨new' ++ new, ?_, ?_⟩, h'.online.trans h.online⟩
  · rw [hnew', hnew, List.append_assoc]
  · intro o ho
    rcases List.mem_append.mp ho with ho | ho
    · exact hP' o ho
    · exact hP o ho

theorem Emits.mono (h : Emits P s s') (hPQ : ∀ o, P o → Q o) : Emits Q s s' := by
  obtain ⟨new, hnew, hP⟩ := h.output
  exact ⟨⟨new, hnew, fun o ho => hPQ o (hP o ho)⟩, h.online⟩

theorem Emits.say (s : MotorTerminal F) {l : TerminalLine F} (h : P (.line l)) :
    Emits P s (s.say l) :=
  ⟨⟨[.line l], rfl, by simpa using h⟩, rfl⟩

end Emits

variable [Double F] {env : Bus} {s s' : MotorTerminal F}

/-! ### Stops -/

theorem stopWheel_eq (brake : Bool) (s : MotorTerminal F) (i : Fin 4) :
    stopWheel brake s i = { s with
      target := Function.update s.target i 0
      commanded := if brake && s.online i then Function.update s.commanded i 0 else s.commanded
      output := if brake && s.online i then .sent i .brake :: s.output else s.output } := by
  rw [stopWheel]
  by_cases h : (brake && s.online i) = true
  · simp only [h, if_true]
    rfl
  · simp only [h, Bool.false_eq_true, if_false]

/-- What the loop of `stop` leaves behind, wheel by wheel. -/
structure Stopped (is : List (Fin 4)) (brake : Bool) (s s' : MotorTerminal F) : Prop where
  target : ∀ i, s'.target i = if i ∈ is then 0 else s.target i
  commanded : ∀ i, s'.commanded i = if brake ∧ s.online i ∧ i ∈ is then 0 else s.commanded i
  sent : ∀ i, brake → s.online i → i ∈ is → lastSent s'.output i = some .brake
  emits : Emits (fun o => ∃ i, o = .sent i .brake) s s'
  rest : s' = { s with target := s'.target, commanded := s'.commanded, output := s'.output }

theorem stopWheel_stopped (brake : Bool) (s : MotorTerminal F) (j : Fin 4) :
    Stopped [j] brake s (stopWheel brake s j) := by
  rw [stopWheel_eq]
  by_cases hsend : (brake && s.online j) = true
  · have hboth : brake = true ∧ s.online j = true := by simpa using hsend
    rw [if_pos hsend, if_pos hsend]
    refine ⟨?_, ?_, ?_, ⟨⟨[.sent j .brake], rfl, by simp⟩, rfl⟩, rfl⟩
    · intro i
      simp [Function.update_apply]
    · intro i
      by_cases hij : i = j
      · subst hij
        simp [hboth]
      · simp [hij]
    · intro i _ _ hi
      rw [lastSent_sent, if_pos (List.mem_singleton.mp hi).symm]
  · rw [if_neg hsend, if_neg hsend]
    have hneither (h : brake = true) : s.online j = false := by simpa [h] using hsend
    refine ⟨?_, ?_, ?_, .of_eq rfl rfl, rfl⟩
    · intro i
      simp [Function.update_apply]
    · intro i
      refine (if_neg ?_).symm
      rintro ⟨hbrake, honline, hi⟩
      rw [List.mem_singleton.mp hi, hneither hbrake] at honline
      cases honline
    · intro i hbrake honline hi
      rw [List.mem_singleton.mp hi, hneither hbrake] at honline
      cases honline

/-- More brakes leave the wheels that have braked as they are. -/
theorem Stopped.append {is js : List (Fin 4)} {brake : Bool} {s t u : MotorTerminal F}
    (h : Stopped is brake s t) (h' : Stopped js brake t u) : Stopped (is ++ js) brake s u where
  target := by
    intro i
    rw [h'.target, h.target]
    by_cases hi : i ∈ js
    · simp [hi]
    · simp [hi]
  commanded := by
    intro i
    rw [h'.commanded, h.commanded, h.emits.online]
    by_cases hi : i ∈ js
    · by_cases hboth : brake = true ∧ s.online i = true
      · simp [hi, hboth]
      · rw [if_neg fun h => hboth ⟨h.1, h.2.1⟩, if_neg fun h => hboth ⟨h.1, h.2.1⟩,
          if_neg fun h => hboth ⟨h.1, h.2.1⟩]
    · simp [hi]
  sent := by
    intro i hbrake honline hmem
    by_cases hi : i ∈ js
    · exact h'.sent i hbrake (h.emits.online ▸ honline) hi
    · have hlast := h.sent i hbrake honline ((List.mem_append.mp hmem).resolve_right hi)
      obtain ⟨new, hnew, hbrakes⟩ := h'.emits.output
      rw [hnew]
      refine lastSent_append ?_ hlast
      intro o ho
      obtain ⟨k, rfl⟩ := hbrakes o ho
      rfl
  emits := h.emits.trans h'.emits
  rest := h'.rest.trans (congrArg (fun x : MotorTerminal F => { x with
    target := u.target, commanded := u.commanded, output := u.output }) h.rest)

theorem foldl_stopWheel (brake : Bool) (is : List (Fin 4)) (s : MotorTerminal F) :
    Stopped is brake s (is.foldl (stopWheel brake) s) := by
  induction is generalizing s with
  | nil => exact ⟨fun _ => rfl, by simp, by simp, .refl s, rfl⟩
  | cons j is ih => exact (stopWheel_stopped brake s j).append (ih _)

/-- What a stop leaves behind: no target, and on a brake nothing commanded either. -/
structure Halts (brake : Bool) (s s' : MotorTerminal F) : Prop where
  target : ∀ i, s'.target i = 0
  commanded : ∀ i, s'.commanded i = if brake ∧ s.online i then 0 else s.commanded i
  sent : brake → ∀ i, s'.online i → lastSent s'.output i = some .brake
  emits : Emits (fun o => ∃ i, o = .sent i .brake) s s'
  moving : s'.moving = false
  profiles : s'.linearProfile = (if brake then .zero else s.linearProfile) ∧
    s'.yawProfile = if brake then .zero else s.yawProfile
  rest : s' = { s with
    target := s'.target, commanded := s'.commanded, output := s'.output, moving := false
    linearProfile := s'.linearProfile, yawProfile := s'.yawProfile }

theorem stop_halts (s : MotorTerminal F) (brake : Bool) : Halts brake s (s.stop brake) := by
  set t : MotorTerminal F :=
    if brake then { s with moving := false }.resetProfiles else { s with moving := false } with ht
  have hloop : Stopped wheelIndices brake t (s.stop brake) := foldl_stopWheel brake wheelIndices t
  have hrest := hloop.rest
  have hstart : t = { s with
      moving := false
      linearProfile := if brake then .zero else s.linearProfile
      yawProfile := if brake then .zero else s.yawProfile } := by
    rw [ht]
    cases brake <;> rfl
  have honline : t.online = s.online := by rw [hstart]
  have hcommanded : t.commanded = s.commanded := by rw [hstart]
  have houtput : t.output = s.output := by rw [hstart]
  refine ⟨?_, ?_, ?_, ?_, ?_, ?_, ?_⟩
  · intro i
    rw [hloop.target i, if_pos (mem_wheelIndices i)]
  · intro i
    rw [hloop.commanded i, honline, hcommanded]
    simp [mem_wheelIndices]
  · intro hb i hi
    rw [hloop.emits.online] at hi
    exact hloop.sent i hb hi (mem_wheelIndices i)
  · exact Emits.trans (.of_eq houtput honline) hloop.emits
  · rw [hrest, hstart]
  · rw [hrest, hstart]
    exact ⟨rfl, rfl⟩
  · rw [hrest, hstart]

theorem stop_online (s : MotorTerminal F) (brake : Bool) : (s.stop brake).online = s.online :=
  (stop_halts s brake).emits.online

theorem stop_quiet (s : MotorTerminal F) (brake : Bool) :
    Emits TerminalOutput.Quiet s (s.stop brake) := by
  refine (stop_halts s brake).emits.mono ?_
  rintro o ⟨i, rfl⟩
  exact TerminalOutput.quiet_brake i

/-- A fault: what `stop(true)` leaves behind, and the message. -/
theorem fault_halts (s : MotorTerminal F) (l : TerminalLine F) :
    ∃ t, Halts true { s with faulted := true } t ∧ s.fault l = t.say l :=
  ⟨_, stop_halts _ true, rfl⟩

/-! ### Commands -/

/-- The settings that a command changes, under what the source tests for each. -/
inductive Configures (s : MotorTerminal F) : MotorTerminal F → Prop
  | mode (m : TerminalMode) (hall : m = .shape → s.selected = -1) :
    Configures s { s with mode := m }.resetProfiles
  | shape (a b c d : F)
    (h : (0.01 ≤ a && a ≤ 5 && 0.01 ≤ b && b ≤ 50 && 0.01 ≤ c && c ≤ 20 && 0.01 ≤ d && d ≤ 200) =
      true) :
    Configures s { s with ax := a, jx := b, aw := c, jw := d }
  | hardware (a : F) (h : (1 ≤ a && a ≤ 255 && floor a == a) = true) :
    Configures s { s with hardwareAccel := toUInt8 a }
  | software (a : F) (h : (0 ≤ a && a ≤ 100.0) = true) :
    Configures s
      { s with softwareAccel := a, mode := if a == 0 then .hw else .linear }.resetProfiles
  | select (k : ℤ)
    (h : k = -1 ∨ ∃ a : F, (0 ≤ a && a < 4.0 && floor a == a) = true ∧ k = toInt a) :
    Configures s (s.selectWheel k)

theorem Configures.same (h : Configures s s') : s'.output = s.output ∧ s'.online = s.online ∧
    s'.faulted = s.faulted ∧ s'.connected = s.connected := by
  cases h <;> exact ⟨rfl, rfl, rfl, rfl⟩

/-- The effects of a command line. -/
inductive CommandStep (env : Bus) (s : MotorTerminal F) : MotorTerminal F → Prop
  /-- Help, a report or a refusal: nothing but the answer. -/
  | answered (lines : List (TerminalLine F)) (h : ∀ l ∈ lines, l.Plain) :
    CommandStep env s { s with output := lines.map .line ++ s.output }
  | stopped (brake : Bool) (text : String) (h : text = "OK stop" ∨ text = "OK brake") :
    CommandStep env s ((s.stop brake).say (.text text))
  | cleared : CommandStep env s (commandClear env s)
  /-- Settings change only at rest. -/
  | configured (t : MotorTerminal F) (hrest : s.atRest) (h : Configures s t) :
    CommandStep env s (t.say .settings)
  /-- A run without a motor: the targets are withdrawn, and the run is refused. -/
  | unselected (a b : F) (hfault : s.faulted = false) (hnone : wheelIndices.any s.driven = false) :
    CommandStep env s
      ({ s with target := s.runTargets a b }.say (.text "ERR no selected motor online"))
  | ran (a b c : F) (h : (fabs a ≤ 200 && fabs b ≤ 200 && 0.1 ≤ c && c ≤ 10) = true)
    (hfault : s.faulted = false) (hall : s.mode = .shape → wheelIndices.all s.online)
    (hany : wheelIndices.any s.driven) : CommandStep env s (beginRun env s a b c)

/-- One line printed, and nothing else. -/
theorem CommandStep.say (env : Bus) (s : MotorTerminal F) {l : TerminalLine F} (h : l.Plain) :
    CommandStep env s (s.say l) :=
  .answered [l] (by simpa using h)

theorem commandWord_step {args : List (List Char)} (h : commandWord env s args = some s') :
    CommandStep env s s' := by
  unfold commandWord at h
  split at h
  · split_ifs at h
    · rw [← Option.some.inj h]
      exact .answered [.settings, .help]
        (by simp [TerminalLine.plain_settings, TerminalLine.plain_help])
    · rw [← Option.some.inj h]
      exact .say env s TerminalLine.plain_settings
    · rw [← Option.some.inj h]
      exact .stopped false _ (.inl rfl)
    · rw [← Option.some.inj h]
      exact .stopped true _ (.inr rfl)
    · rw [← Option.some.inj h]
      exact .cleared
  · cases h

theorem commandMode_step {args : List (List Char)} (h : commandMode s args = some s') :
    CommandStep env s s' := by
  unfold commandMode at h
  split at h
  · split_ifs at h with hrest hshape
    · rw [← Option.some.inj h]
      exact .configured _ hrest.2 (.mode .shape fun _ => hshape.2)
    · rw [← Option.some.inj h]
      exact .configured _ hrest.2 (.mode .hw nofun)
    · rw [← Option.some.inj h]
      exact .configured _ hrest.2 (.mode .linear nofun)
    · rw [← Option.some.inj h]
      exact .say env s (TerminalLine.plain_text (by decide))
  · cases h

theorem commandShape_step {args : List (List Char)} (h : commandShape s args = some s') :
    CommandStep env s s' := by
  unfold commandShape at h
  split at h
  · split_ifs at h with hrest
    simp only [Option.bind_eq_bind, Option.bind_eq_some_iff] at h
    obtain ⟨a, -, b, -, c, -, d, -, h⟩ := h
    split_ifs at h with haccepted
    rw [← Option.some.inj h]
    exact .configured _ hrest.2 (.shape a b c d haccepted)
  · cases h

theorem commandHw_step {args : List (List Char)} (h : commandHw s args = some s') :
    CommandStep env s s' := by
  unfold commandHw at h
  split at h
  · split_ifs at h
    simp only [Option.bind_eq_bind, Option.bind_eq_some_iff] at h
    obtain ⟨a, -, h⟩ := h
    split_ifs at h with haccepted
    rw [← Option.some.inj h, setHw]
    split_ifs with hrest
    · exact .say env s (TerminalLine.plain_text (by decide))
    · exact .configured _ (by simpa using hrest) (.hardware a haccepted)
  · cases h

theorem commandSw_step {args : List (List Char)} (h : commandSw s args = some s') :
    CommandStep env s s' := by
  unfold commandSw at h
  split at h
  · split_ifs at h
    simp only [Option.bind_eq_bind, Option.bind_eq_some_iff] at h
    obtain ⟨a, -, h⟩ := h
    split_ifs at h with haccepted
    rw [← Option.some.inj h, setSw]
    split
    · exact .say env s (TerminalLine.plain_text (by decide))
    · next hrest => exact .configured _ (by simpa using hrest) (.software a haccepted)
  · cases h

theorem commandWheel_step {args : List (List Char)} (h : commandWheel s args = some s') :
    CommandStep env s s' := by
  unfold commandWheel at h
  split at h
  · split_ifs at h with hrest hall
    · rw [← Option.some.inj h]
      exact .configured _ hrest.2 (.select (-1) (.inl rfl))
    · rw [← Option.some.inj h]
      split
      · next a _ =>
        split_ifs with haccepted
        · exact .configured _ hrest.2 (.select _ (.inr ⟨a, haccepted, rfl⟩))
        · exact .say env s (TerminalLine.plain_text (by decide))
      · exact .say env s (TerminalLine.plain_text (by decide))
  · cases h

theorem startRun_step (s : MotorTerminal F) {a b c : F}
    (h : (fabs a ≤ 200 && fabs b ≤ 200 && 0.1 ≤ c && c ≤ 10) = true) :
    CommandStep env s (startRun env s a b c) := by
  rw [startRun]
  split_ifs with hfault hshape hany
  · exact .say env s (TerminalLine.plain_text (by decide))
  · exact .say env s (TerminalLine.plain_text (by decide))
  · exact .unselected a b (by simpa using hfault) (by simpa using hany)
  · refine .ran a b c h (by simpa using hfault) ?_ (by simpa using hany)
    intro hmode
    simpa [hmode] using hshape

theorem commandRun_step {args : List (List Char)} (h : commandRun env s args = some s') :
    CommandStep env s s' := by
  unfold commandRun at h
  split at h
  · split_ifs at h
    simp only [Option.bind_eq_bind, Option.bind_eq_some_iff] at h
    obtain ⟨a, -, b, -, c, -, h⟩ := h
    split_ifs at h with haccepted
    rw [← Option.some.inj h]
    exact startRun_step s haccepted
  · cases h

/-- The first alternative that is there. -/
theorem forall_or {α : Type*} {P : α → Prop} {o o' : Option α} (h : ∀ x, o = some x → P x)
    (h' : ∀ x, o' = some x → P x) : ∀ x, o.or o' = some x → P x := by
  cases o with
  | none => exact h'
  | some y => exact h

/-- Or the value that stands in for it. -/
theorem of_getD {α : Type*} {P : α → Prop} {o : Option α} {d : α} (h : ∀ x, o = some x → P x)
    (hd : P d) : P (o.getD d) := by
  cases o with
  | none => exact hd
  | some y => exact h y rfl

/-- **Every command line has one of the listed effects.** -/
theorem command_step (env : Bus) (s : MotorTerminal F) (line : List Char) :
    CommandStep env s (command env s line) := by
  rw [command]
  generalize CString.strtok [' ', '\t'] line = args
  split_ifs
  · exact .answered [] (by simp)
  · exact .say env s (TerminalLine.plain_text (by decide))
  · -- the first part that does not pass the line on
    refine of_getD ?_ (.say env s (TerminalLine.plain_text (by decide)))
    exact forall_or (forall_or (forall_or (forall_or (forall_or (forall_or
      (fun _ => commandWord_step) fun _ => commandMode_step) fun _ => commandShape_step)
      fun _ => commandHw_step) fun _ => commandSw_step) fun _ => commandWheel_step)
      fun _ => commandRun_step

omit [Double F] in
/-- What the loop of `clear` asks leaves nothing but the count of the questions. -/
theorem foldl_clearWheel (env : Bus) (is : List (Fin 4)) (good : Bool) (s : MotorTerminal F) :
    ∃ good' queries, is.foldl (clearWheel env) (good, s) = (good', { s with queries := queries }) ∧
      (good' → good = true ∧ ∀ i ∈ is, s.online i) := by
  induction is generalizing good s with
  | nil => exact ⟨good, s.queries, rfl, by simp⟩
  | cons i is ih =>
    rw [List.foldl_cons, clearWheel]
    split
    · next hi =>
      obtain ⟨good', queries, heq, hgood⟩ := ih (env.mode s.queries == ddsm210ModeVelocity)
        { s with queries := s.queries + 1 }
      refine ⟨good', queries, heq, ?_⟩
      intro h
      simp only [Bool.and_eq_true] at hi
      refine ⟨hi.1, ?_⟩
      intro j hj
      rcases List.mem_cons.mp hj with rfl | hj
      · exact hi.2
      · exact (hgood h).2 j hj
    · obtain ⟨good', queries, heq, hgood⟩ := ih false s
      refine ⟨good', queries, heq, ?_⟩
      intro h
      exact absurd (hgood h).1 (by decide)

/-- `clear` brakes, and only with all wheels online does it withdraw a fault. -/
theorem commandClear_cases (env : Bus) (s : MotorTerminal F) :
    ∃ queries,
      commandClear env s = { s.stop true with queries := queries }.say
        (.text "ERR clear: motor mode/reply missing; fault remains") ∨
      (∀ i, s.online i) ∧
        commandClear env s = { s.stop true with
          queries := queries, faulted := false, ticks := (s.stop true).ticks + 1
          lastTickUs := env.clock (s.stop true).ticks
          nextTickUs := env.clock (s.stop true).ticks + 20000 }.say
            (.text "OK cleared; stopped") := by
  obtain ⟨good, queries, heq, hgood⟩ := foldl_clearWheel env wheelIndices true (s.stop true)
  refine ⟨queries, ?_⟩
  rw [commandClear, heq]
  cases good with
  | false => exact .inl rfl
  | true =>
    refine .inr ⟨?_, rfl⟩
    intro i
    have hi := (hgood rfl).2 i (mem_wheelIndices i)
    rwa [stop_online] at hi

/-! ### The control tick -/

/-- The loop over the wheels, as far as the wheels in `done`. -/
structure Drives (left right : F) (done : List (Fin 4)) (s t : MotorTerminal F) : Prop where
  commanded : ∀ i, t.commanded i =
    if s.online i ∧ i ∈ done then s.nextCommanded left right i else s.commanded i
  emits : Emits (fun o => ∃ i ∈ done, s.online i ∧ o = .sent i
    (.velocity (velocityUnits (s.nextCommanded left right i) i) s.hardwareAccel)) s t
  rest : t = { s with commanded := t.commanded, output := t.output, frames := t.frames }

theorem Drives.refl (left right : F) (s : MotorTerminal F) : Drives left right [] s s :=
  ⟨by simp, .refl s, rfl⟩

/-- A wheel that is offline is passed over. -/
theorem Drives.skip (left right : F) {i : Fin 4} (hi : s.online i = false) :
    Drives left right [i] s s where
  commanded j := by
    rw [if_neg]
    rintro ⟨hj, hmem⟩
    rw [List.mem_singleton.mp hmem, hi] at hj
    cases hj
  emits := .refl s
  rest := rfl

theorem driveWheel_drives (left right : F) {i : Fin 4} (hi : s.online i) :
    Drives left right [i] s (driveWheel left right s i) where
  commanded j := by
    rw [driveWheel]
    by_cases hij : j = i
    · subst hij
      simp [send, hi]
    · simp [send, hij]
  emits := by
    refine ⟨⟨[_], rfl, ?_⟩, rfl⟩
    intro o ho
    rw [List.mem_singleton.mp ho]
    exact ⟨i, List.mem_singleton_self i, hi, rfl⟩
  rest := rfl

/-- The speed of a wheel depends on nothing the loop changes at other wheels. -/
theorem Drives.nextCommanded_eq {left right : F} {done : List (Fin 4)} {t : MotorTerminal F}
    (h : Drives left right done s t) {i : Fin 4} (hi : i ∉ done) :
    t.nextCommanded left right i = s.nextCommanded left right i := by
  have hcommanded : t.commanded i = s.commanded i := by
    rw [h.commanded i, if_neg fun hmem => hi hmem.2]
  rw [nextCommanded, nextCommanded, hcommanded, h.rest]

theorem Drives.trans {left right : F} {done done' : List (Fin 4)} {t u : MotorTerminal F}
    (h : Drives left right done s t) (h' : Drives left right done' t u)
    (hdisjoint : ∀ i ∈ done', i ∉ done) : Drives left right (done ++ done') s u where
  commanded i := by
    rw [h'.commanded i, h.emits.online]
    by_cases hi : i ∈ done'
    · rw [h.nextCommanded_eq (hdisjoint i hi), h.commanded i]
      simp [hi, hdisjoint i hi]
    · simp [hi, h.commanded i]
  emits := by
    refine (h.emits.mono ?_).trans (h'.emits.mono ?_)
    · rintro o ⟨i, hi, hsent⟩
      exact ⟨i, List.mem_append_left _ hi, hsent⟩
    · rintro o ⟨i, hi, honline, rfl⟩
      rw [h.emits.online] at honline
      refine ⟨i, List.mem_append_right _ hi, honline, ?_⟩
      rw [h.nextCommanded_eq (hdisjoint i hi), h.rest]
  rest := h'.rest.trans (congrArg (fun x : MotorTerminal F => { x with
    commanded := u.commanded, output := u.output, frames := u.frames }) h.rest)

/-- The loop over the wheels completes, or it ends in a fault behind some of them. -/
theorem sendWheels_cases (env : Bus) (left right : F) (is : List (Fin 4)) (s : MotorTerminal F)
    (hnodup : is.Nodup) :
    Drives left right is s (sendWheels env left right is s) ∨
    ∃ t : MotorTerminal F, ∃ done l, (∀ i ∈ done, i ∈ is) ∧ Drives left right done s t ∧
      l.isMotorFault = true ∧ sendWheels env left right is s = t.fault l := by
  induction is generalizing s with
  | nil => exact .inl (.refl left right s)
  | cons i is ih =>
    obtain ⟨hi, hnodup⟩ := List.nodup_cons.mp hnodup
    -- the rest of the loop, once this wheel is done
    have hrest {t : MotorTerminal F} (ht : Drives left right [i] s t) :
        Drives left right (i :: is) s (sendWheels env left right is t) ∨
        ∃ u : MotorTerminal F, ∃ done l, (∀ j ∈ done, j ∈ i :: is) ∧
          Drives left right done s u ∧ l.isMotorFault = true ∧
          sendWheels env left right is t = u.fault l := by
      have hdisjoint : ∀ j ∈ is, j ∉ [i] := by
        intro j hj hmem
        rw [List.mem_singleton.mp hmem] at hj
        exact hi hj
      rcases ih t hnodup with hall | ⟨u, done, l, hdone, hu, hl, heq⟩
      · exact .inl (ht.trans hall hdisjoint)
      · refine .inr ⟨u, [i] ++ done, l, ?_, ht.trans hu ?_, hl, heq⟩
        · intro j hj
          rcases List.mem_append.mp hj with hj | hj
          · rw [List.mem_singleton.mp hj]
            exact List.mem_cons_self
          · exact List.mem_cons_of_mem _ (hdone j hj)
        · intro j hj
          exact hdisjoint j (hdone j hj)
    rw [sendWheels]
    by_cases honline : s.online i = true
    · rw [if_neg (by simp [honline])]
      have hdrive := driveWheel_drives left right honline
      have hone : ∀ j ∈ [i], j ∈ i :: is := by simp
      split_ifs
      · exact .inr ⟨_, [i], .replyFault i, hone, hdrive, rfl, rfl⟩
      · exact .inr ⟨_, [i], .motorFault i _, hone, hdrive, rfl, rfl⟩
      · exact hrest hdrive
    · rw [if_pos (by simp [honline])]
      exact hrest (.skip left right (by simpa using honline))

/-- What the shaped branch does with the profiles. -/
inductive AdvanceStep (s : MotorTerminal F) (dt : F) : MotorTerminal F → Prop
  | advanced (linear yaw : MotionProfile F)
    (hlinear : motionProfileStep s.linearProfile s.profileTargets.1 s.ax s.jx dt = some linear)
    (hyaw : motionProfileStep s.yawProfile s.profileTargets.2 s.aw s.jw dt = some yaw)
    (hslow : ¬210.0 < fmax (fabs { s with linearProfile := linear, yawProfile := yaw }.shapedLeft)
      (fabs { s with linearProfile := linear, yawProfile := yaw }.shapedRight)) :
    AdvanceStep s dt { s with linearProfile := linear, yawProfile := yaw }
  /-- One of the two profiles is refused; the first one may have moved on. -/
  | refused (linear : MotionProfile F)
    (h : motionProfileStep s.linearProfile s.profileTargets.1 s.ax s.jx dt = none ∨
      motionProfileStep s.yawProfile s.profileTargets.2 s.aw s.jw dt = none) :
    AdvanceStep s dt ({ s with linearProfile := linear }.fault (.profileFault dt))
  | fast (linear yaw : MotionProfile F)
    (hlinear : motionProfileStep s.linearProfile s.profileTargets.1 s.ax s.jx dt = some linear)
    (hyaw : motionProfileStep s.yawProfile s.profileTargets.2 s.aw s.jw dt = some yaw)
    (hfast : 210.0 < fmax (fabs { s with linearProfile := linear, yawProfile := yaw }.shapedLeft)
      (fabs { s with linearProfile := linear, yawProfile := yaw }.shapedRight)) :
    AdvanceStep s dt ({ s with linearProfile := linear, yawProfile := yaw }.fault .speedFault)

theorem advanceProfiles_step (s : MotorTerminal F) (dt : F) :
    AdvanceStep s dt (s.advanceProfiles dt) := by
  rw [advanceProfiles]
  cases hlinear : motionProfileStep s.linearProfile s.profileTargets.1 s.ax s.jx dt with
  | none => exact .refused s.linearProfile (.inl hlinear)
  | some linear =>
    show AdvanceStep s dt (advanceYaw { s with linearProfile := linear } dt)
    unfold advanceYaw
    -- the target of the yaw profile does not depend on the linear profile
    split
    · next hyaw => exact .refused linear (.inr hyaw)
    · next yaw hyaw =>
      show AdvanceStep s dt (if _ then _ else _)
      split
      · next hfast => exact .fast linear yaw hlinear hyaw hfast
      · next hslow => exact .advanced linear yaw hlinear hyaw hslow

end MotorTerminal
