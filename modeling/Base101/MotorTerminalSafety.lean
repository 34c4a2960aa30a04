/-
The brakes of the motor terminal over whole runs, whatever the arithmetic.

* `motion_only_when_safe` — with a fault or without a host every online wheel was last
  told to brake, and between a fault and the next motion stands an accepted `clear`.
-/
import Base101.MotorTerminalSteps

namespace MotorTerminal

open Double

variable {F : Type}

/-! ### Faults in the output -/

/-- The fault is the one the output tells; with a fault or without a host the wheels are
braked. -/
structure SafeOutput (online : Fin 4 → Bool) (faulted connected : Bool)
    (output : List (TerminalOutput F)) : Prop where
  latch : faulted = latched TerminalOutput.isFault TerminalOutput.isCleared output
  motion : Guarded TerminalOutput.isFault TerminalOutput.isCleared TerminalOutput.isMotion output
  braked : faulted = true ∨ connected = false →
    ∀ i, online i → lastSent output i = some .brake

variable {online : Fin 4 → Bool} {faulted connected : Bool} {output new : List (TerminalOutput F)}

/-- Quiet output, with the same fault and the same host. -/
theorem SafeOutput.quiet (h : SafeOutput online faulted connected output)
    (hquiet : ∀ o ∈ new, o.Quiet) : SafeOutput online faulted connected (new ++ output) where
  latch := by
    rw [h.latch, latched_append]
    intro o ho
    exact ⟨(hquiet o ho).fault, (hquiet o ho).cleared⟩
  motion := h.motion.append fun o ho => (hquiet o ho).motion
  braked hcause i hi := lastSent_append (fun o ho => (hquiet o ho).motion) (h.braked hcause i hi)

/-- Frames are sent in motion only without a fault and with a host. -/
theorem SafeOutput.motions (h : SafeOutput online false true output)
    (hnew : ∀ o ∈ new, o.isFault = false ∧ o.isCleared = false) :
    SafeOutput online false true (new ++ output) := by
  induction new with
  | nil => exact h
  | cons o new ih =>
    have hrest := ih fun o ho => hnew o (List.mem_cons_of_mem _ ho)
    obtain ⟨hfault, hcleared⟩ := hnew o List.mem_cons_self
    refine ⟨?_, hrest.motion.cons fun _ => hrest.latch.symm, by simp⟩
    have hsame : latched TerminalOutput.isFault TerminalOutput.isCleared (o :: (new ++ output)) =
        latched TerminalOutput.isFault TerminalOutput.isCleared (new ++ output) := by
      simp [latched, hfault, hcleared]
    exact hrest.latch.trans hsame.symm

/-- The message of a fault, once all wheels are braked. -/
theorem SafeOutput.fault {l : TerminalLine F} (h : SafeOutput online faulted connected output)
    (hbraked : ∀ i, online i → lastSent output i = some .brake) (hl : l.isFault = true) :
    SafeOutput online true connected (.line l :: output) where
  latch := by
    rw [latched, if_pos (by exact hl)]
  motion := h.motion.cons nofun
  braked _ := hbraked

/-- The answer that a fault is withdrawn. -/
theorem SafeOutput.cleared {l : TerminalLine F} (h : SafeOutput online faulted connected output)
    (hbraked : ∀ i, online i → lastSent output i = some .brake) (hl : l.isFault = false)
    (hl' : l.isCleared = true) : SafeOutput online false connected (.line l :: output) where
  latch := by
    rw [latched, if_neg (by simp [TerminalOutput.isFault, hl]), if_pos (by exact hl')]
  motion := h.motion.cons nofun
  braked _ := hbraked

/-- The host goes with the wheels braked, or comes. -/
theorem SafeOutput.host {connected' : Bool} (h : SafeOutput online faulted connected output)
    (hbraked : connected' = false → ∀ i, online i → lastSent output i = some .brake) :
    SafeOutput online faulted connected' output where
  latch := h.latch
  motion := h.motion
  braked hcause := by
    rcases hcause with hfault | hhost
    · exact h.braked (.inl hfault)
    · exact hbraked hhost

/-! ### Faults in the terminal -/

variable [Double F] {env : Bus} {s s' : MotorTerminal F}

def Safe (s : MotorTerminal F) : Prop := SafeOutput s.online s.faulted s.connected s.output

omit [Double F] in
theorem Safe.quiet (h : Safe s) (hemits : Emits TerminalOutput.Quiet s s')
    (hfaulted : s'.faulted = s.faulted) (hconnected : s'.connected = s.connected) : Safe s' := by
  obtain ⟨new, hnew, hquiet⟩ := hemits.output
  rw [Safe, hemits.online, hfaulted, hconnected, hnew]
  exact SafeOutput.quiet h hquiet

theorem stop_faulted (s : MotorTerminal F) (brake : Bool) :
    (s.stop brake).faulted = s.faulted ∧ (s.stop brake).connected = s.connected := by
  rw [(stop_halts s brake).rest]
  exact ⟨rfl, rfl⟩

theorem fault_faulted (s : MotorTerminal F) (l : TerminalLine F) : (s.fault l).faulted = true :=
  (stop_faulted { s with faulted := true } true).1

theorem Safe.stop (h : Safe s) (brake : Bool) : Safe (s.stop brake) :=
  h.quiet (stop_quiet s brake) (stop_faulted s brake).1 (stop_faulted s brake).2

omit [Double F] in
/-- A plain line printed; what else changes is not a matter of faults. -/
theorem Safe.line (h : Safe s) {l : TerminalLine F} (hl : l.Plain)
    (houtput : s'.output = .line l :: s.output) (honline : s'.online = s.online)
    (hfaulted : s'.faulted = s.faulted) (hconnected : s'.connected = s.connected) : Safe s' := by
  refine h.quiet ⟨⟨[.line l], houtput, ?_⟩, honline⟩ hfaulted hconnected
  simpa using TerminalOutput.quiet_line hl

theorem Safe.fault (h : Safe s) {l : TerminalLine F} (hl : l.isFault = true) :
    Safe (s.fault l) := by
  obtain ⟨t, ht, heq⟩ := fault_halts s l
  obtain ⟨new, hnew, hbrakes⟩ := ht.emits.output
  have hfaulted : t.faulted = true := by rw [ht.rest]
  have hconnected : t.connected = s.connected := by rw [ht.rest]
  rw [heq]
  show SafeOutput t.online t.faulted t.connected (.line l :: t.output)
  have honline : t.online = s.online := ht.emits.online
  rw [hfaulted, hconnected]
  have hquiet : SafeOutput t.online s.faulted s.connected t.output := by
    rw [hnew, honline]
    refine SafeOutput.quiet h ?_
    intro o ho
    obtain ⟨i, rfl⟩ := hbrakes o ho
    exact TerminalOutput.quiet_brake i
  exact hquiet.fault (ht.sent rfl) hl

theorem Safe.clear (h : Safe s) (env : Bus) : Safe (commandClear env s) := by
  have hstop := h.stop true
  have hbraked := (stop_halts s true).sent rfl
  obtain ⟨queries, heq | ⟨-, heq⟩⟩ := commandClear_cases env s
  · rw [heq]
    exact hstop.line (TerminalLine.plain_text (by decide)) rfl rfl rfl rfl
  · rw [heq]
    simp only [Safe, MotorTerminal.say] at hstop ⊢
    exact hstop.cleared hbraked rfl TerminalLine.isCleared_text

theorem beginRun_same (env : Bus) (s : MotorTerminal F) (a b c : F) :
    (beginRun env s a b c).output = .line (.ran a b c) :: s.output ∧
      (beginRun env s a b c).online = s.online ∧ (beginRun env s a b c).faulted = s.faulted ∧
      (beginRun env s a b c).connected = s.connected := by
  rw [beginRun]
  simp only [MotorTerminal.say]
  split <;> exact ⟨rfl, rfl, rfl, rfl⟩

theorem Safe.command (h : Safe s) (env : Bus) (line : List Char) : Safe (command env s line) := by
  have hstep := command_step env s line
  generalize MotorTerminal.command env s line = s' at hstep
  cases hstep with
  | answered lines hlines =>
    refine h.quiet ⟨⟨lines.map .line, rfl, ?_⟩, rfl⟩ rfl rfl
    intro o ho
    obtain ⟨l, hl, rfl⟩ := List.mem_map.mp ho
    exact TerminalOutput.quiet_line (hlines l hl)
  | stopped brake text htext =>
    have hplain : (TerminalLine.text text : TerminalLine F).Plain := by
      rcases htext with rfl | rfl
      · exact TerminalLine.plain_text (by decide)
      · exact TerminalLine.plain_text (by decide)
    exact (h.stop brake).line hplain rfl rfl rfl rfl
  | cleared => exact h.clear env
  | configured t hrest hset =>
    obtain ⟨houtput, honline, hfaulted, hconnected⟩ := hset.same
    exact h.line TerminalLine.plain_settings (congrArg _ houtput) honline hfaulted hconnected
  | unselected => exact h.line (TerminalLine.plain_text (by decide)) rfl rfl rfl rfl
  | ran a b c =>
    obtain ⟨houtput, honline, hfaulted, hconnected⟩ := beginRun_same env s a b c
    exact h.line ⟨rfl, rfl⟩ houtput honline hfaulted hconnected

theorem Safe.receive (h : Safe s) (env : Bus) (ch : Char) : Safe (receive env s ch) := by
  rw [MotorTerminal.receive]
  split_ifs
  · exact (h.stop true).line (TerminalLine.plain_text (by decide)) rfl rfl rfl rfl
  · exact h.command env _
  · exact h.line (TerminalLine.plain_text (by decide)) rfl rfl rfl rfl
  · exact h
  · exact h
  · exact h

theorem Safe.connect (h : Safe s) (mounted : Bool) : Safe (s.connect mounted) := by
  rw [MotorTerminal.connect]
  cases hs : s.connected <;> cases mounted
  · simp only [hs, Bool.false_and, Bool.not_false, Bool.and_false, Bool.false_eq_true, if_false]
    exact hs ▸ h
  · -- the host is here: frames may be sent again
    have hgreet : Safe ((s.say .help).say .settings) := by
      have hhelp : Safe (s.say .help) := h.line TerminalLine.plain_help rfl rfl rfl rfl
      exact hhelp.line TerminalLine.plain_settings rfl rfl rfl rfl
    simp only [hs, Bool.false_and, Bool.not_false, Bool.and_true, Bool.false_eq_true, if_false,
      if_true]
    exact SafeOutput.host hgreet nofun
  · -- the host has gone, with the wheels braked
    have hconnected : (s.stop true).connected = true := (stop_faulted s true).2.trans hs
    simp only [Bool.not_false, Bool.and_true, if_true, dropLine, hconnected, Bool.not_true]
    exact SafeOutput.host (h.stop true) fun _ => (stop_halts s true).sent rfl
  · simp only [hs, Bool.not_true, Bool.and_false, Bool.and_true, Bool.false_eq_true, if_false]
    exact hs ▸ h

/-- Frames in motion. -/
theorem Safe.drives (h : Safe s) (hfaulted : s.faulted = false) (hconnected : s.connected = true)
    {left right : F} {done : List (Fin 4)} (hs' : Drives left right done s s') : Safe s' := by
  obtain ⟨new, hnew, hmotions⟩ := hs'.emits.output
  have hfaulted' : s'.faulted = false := by rw [hs'.rest, hfaulted]
  have hconnected' : s'.connected = true := by rw [hs'.rest, hconnected]
  rw [Safe, hfaulted, hconnected] at h
  rw [Safe, hfaulted', hconnected', hs'.emits.online, hnew]
  refine h.motions ?_
  intro o ho
  obtain ⟨i, -, -, rfl⟩ := hmotions o ho
  exact ⟨rfl, rfl⟩

theorem Safe.sendWheels (h : Safe s) (hfaulted : s.faulted = false)
    (hconnected : s.connected = true) (env : Bus) (left right : F) :
    Safe (sendWheels env left right wheelIndices s) := by
  rcases sendWheels_cases env left right wheelIndices s (by decide) with
    hall | ⟨t, done, l, -, ht, hl, heq⟩
  · exact h.drives hfaulted hconnected hall
  · rw [heq]
    exact (h.drives hfaulted hconnected ht).fault (TerminalLine.isFault_of_motor hl)

theorem Safe.advanceProfiles (h : Safe s) (dt : F) : Safe (s.advanceProfiles dt) := by
  have hstep := advanceProfiles_step s dt
  generalize MotorTerminal.advanceProfiles s dt = s' at hstep
  cases hstep with
  | advanced linear yaw => exact h
  | refused linear => exact Safe.fault (s := { s with linearProfile := linear }) h rfl
  | fast linear yaw =>
    exact Safe.fault (s := { s with linearProfile := linear, yawProfile := yaw }) h rfl

/-- What a tick does, once its time is noted. -/
theorem tick_cases (env : Bus) (s : MotorTerminal F) (now : UInt64) :
    ∃ t : MotorTerminal F, t = { s with lastTickUs := now, nextTickUs := now + 20000 } ∧
      ((s.mode = .shape ∧ tick env s now =
        if (t.advanceProfiles (s.tickDt now)).faulted then t.advanceProfiles (s.tickDt now)
        else sendWheels env (t.advanceProfiles (s.tickDt now)).shapedLeft
          (t.advanceProfiles (s.tickDt now)).shapedRight wheelIndices
          (t.advanceProfiles (s.tickDt now))) ∨
      (s.mode ≠ .shape ∧ tick env s now = sendWheels env 0 0 wheelIndices t)) := by
  refine ⟨_, rfl, ?_⟩
  by_cases hmode : s.mode = .shape
  · refine .inl ⟨hmode, ?_⟩
    rw [tick, if_pos hmode]
  · refine .inr ⟨hmode, ?_⟩
    rw [tick, if_neg hmode]

theorem advanceProfiles_connected (s : MotorTerminal F) (dt : F) :
    (s.advanceProfiles dt).connected = s.connected := by
  have hstep := advanceProfiles_step s dt
  generalize MotorTerminal.advanceProfiles s dt = s' at hstep
  cases hstep with
  | advanced => rfl
  | refused => exact (stop_faulted _ true).2
  | fast => exact (stop_faulted _ true).2

theorem Safe.tick (h : Safe s) (hfaulted : s.faulted = false) (hconnected : s.connected = true)
    (env : Bus) (now : UInt64) : Safe (tick env s now) := by
  obtain ⟨t, ht, ⟨-, heq⟩ | ⟨-, heq⟩⟩ := tick_cases env s now
  · rw [heq]
    have hdue : Safe t := h.quiet (.of_eq (by rw [ht]) (by rw [ht])) (by rw [ht]) (by rw [ht])
    have hadvanced := hdue.advanceProfiles (s.tickDt now)
    split_ifs with hfault
    · exact hadvanced
    · refine hadvanced.sendWheels (by simpa using hfault) ?_ env _ _
      rw [advanceProfiles_connected, ht, hconnected]
  · rw [heq]
    have hdue : Safe t := h.quiet (.of_eq (by rw [ht]) (by rw [ht])) (by rw [ht]) (by rw [ht])
    exact hdue.sendWheels (by rw [ht, hfaulted]) (by rw [ht, hconnected]) env 0 0

theorem Safe.finishRun (h : Safe s) (now : UInt64) : Safe (s.finishRun now) := by
  rw [MotorTerminal.finishRun]
  split
  · exact (h.stop false).line (TerminalLine.plain_text (by decide)) rfl rfl rfl rfl
  · exact h

theorem finishRun_faulted (s : MotorTerminal F) (now : UInt64) :
    (s.finishRun now).faulted = s.faulted ∧ (s.finishRun now).connected = s.connected := by
  rw [finishRun]
  split
  · exact stop_faulted s false
  · exact ⟨rfl, rfl⟩

theorem Safe.update (h : Safe s) (env : Bus) (hconnected : s.connected = true) :
    Safe (update env s) := by
  rw [MotorTerminal.update]
  split_ifs with hfault
  · exact h
  · set t : MotorTerminal F := { s with ticks := s.ticks + 1 } with ht
    have hread : Safe t := h.quiet (.of_eq rfl rfl) rfl rfl
    have hfinished := hread.finishRun (env.clock s.ticks)
    have hsame := finishRun_faulted t (env.clock s.ticks)
    show Safe (if _ then _ else _)
    split
    · exact hfinished
    · refine hfinished.tick (hsame.1.trans ?_) (hsame.2.trans hconnected) env _
      simpa using hfault

/-! ### Runs -/

theorem Safe.step (h : Safe s) {e : Event} (hhost : e = .update → s.connected = true) :
    Safe (step env s e) := by
  cases e with
  | poll mounted => exact h.connect mounted
  | received ch => exact h.receive env ch
  | update => exact h.update env (hhost rfl)

omit [Double F] in
theorem Safe.probe (h : Safe s) (env : Bus) (i : Fin 4) : Safe (beginWheel env s i) := by
  -- the state after the probe; only the wheel that was asked is affected
  have hprobe : ∃ t : MotorTerminal F, beginWheel env s i =
      (if t.online i then t.send i .brake else t).say (.wheel i (t.online i)) ∧
      (∀ j ≠ i, t.online j = s.online j) ∧ t.output = s.output ∧ t.faulted = s.faulted ∧
      t.connected = s.connected := by
    by_cases hport : env.port i = true
    · refine ⟨{ s with online := Function.update s.online i (0 ≤ env.mode s.queries)
                       queries := s.queries + 1 }, ?_, ?_, rfl, rfl, rfl⟩
      · simp only [beginWheel, hport, if_true]
        split <;> rfl
      · intro j hj
        exact Function.update_of_ne hj _ _
    · refine ⟨s, ?_, fun _ _ => rfl, rfl, rfl, rfl⟩
      simp only [beginWheel, hport, Bool.false_eq_true, if_false]
      split <;> rfl
  obtain ⟨t, heq, honline, houtput, hfaulted, hconnected⟩ := hprobe
  rw [heq]
  have hplain : (TerminalLine.wheel i (t.online i) : TerminalLine F).Plain := ⟨rfl, rfl⟩
  by_cases hi : t.online i = true
  · have hsent : Safe (t.send i .brake) := by
      have hbrake : ∀ o ∈ [TerminalOutput.sent i .brake], (o : TerminalOutput F).Quiet := by
        simpa using TerminalOutput.quiet_brake i
      have hquiet := SafeOutput.quiet h hbrake
      refine ⟨?_, ?_, ?_⟩
      · rw [← hfaulted] at hquiet
        rw [← houtput] at hquiet
        exact hquiet.latch
      · rw [← houtput] at hquiet
        exact hquiet.motion
      · intro hcause j hj
        by_cases hij : j = i
        · subst hij
          exact (lastSent_sent j .brake _ j).trans (if_pos rfl)
        · have hold := hquiet.braked (by rw [← hfaulted, ← hconnected]; exact hcause) j
            (by rw [← honline j hij]; exact hj)
          rw [← houtput] at hold
          exact hold
    rw [if_pos hi]
    exact hsent.line hplain rfl rfl rfl rfl
  · rw [if_neg hi]
    have hsame : Safe t := by
      rw [Safe, houtput, hfaulted, hconnected]
      refine ⟨h.latch, h.motion, ?_⟩
      intro hcause j hj
      by_cases hij : j = i
      · subst hij
        exact absurd hj hi
      · exact h.braked hcause j (by rw [← honline j hij]; exact hj)
    exact hsame.line hplain rfl rfl rfl rfl

/-- Before the first iteration every online wheel is braked, and there is no host. -/
theorem boot_safe (env : Bus) : Safe (boot env : MotorTerminal F) := by
  have hinitial : Safe (initial : MotorTerminal F) := ⟨rfl, Guarded.nil, by simp [initial]⟩
  have hloop (is : List (Fin 4)) : ∀ s : MotorTerminal F, Safe s →
      Safe (is.foldl (beginWheel env) s) := by
    induction is with
    | nil => exact fun _ h => h
    | cons i is ih => exact fun s h => ih _ (h.probe env i)
  exact hloop wheelIndices initial hinitial

theorem command_connected (env : Bus) (s : MotorTerminal F) (line : List Char) :
    (command env s line).connected = s.connected := by
  have hstep := command_step env s line
  generalize command env s line = s' at hstep
  cases hstep with
  | stopped brake => exact (stop_faulted s brake).2
  | cleared =>
    have hstop := (stop_faulted s true).2
    obtain ⟨queries, heq | ⟨-, heq⟩⟩ := commandClear_cases env s
    · rw [heq]
      exact hstop
    · rw [heq]
      simp only [MotorTerminal.say]
      exact hstop
  | configured t hrest hset => exact hset.same.2.2.2
  | ran a b c => exact (beginRun_same env s a b c).2.2.2
  | answered => rfl
  | unselected => rfl

omit [Double F] in
theorem dropLine_connected (s : MotorTerminal F) : s.dropLine.connected = s.connected := rfl

theorem receive_connected (env : Bus) (s : MotorTerminal F) (ch : Char) :
    (receive env s ch).connected = s.connected := by
  rw [receive]
  split_ifs
  · exact (stop_faulted s true).2
  · rw [dropLine_connected, command_connected]
  · rfl
  · rfl
  · rfl
  · rfl

/-- In the main loop the motors are updated only with a host. -/
def UpdatesConnected (s : MotorTerminal F) (e : Event) : Prop :=
  e = .update → s.connected = true

theorem received_connected (env : Bus) (chars : List Char) (s : MotorTerminal F) :
    ((terminalMachine env).run s (chars.map .received)).connected = s.connected ∧
      (terminalMachine env).Always UpdatesConnected s (chars.map .received) := by
  induction chars generalizing s with
  | nil => exact ⟨rfl, trivial⟩
  | cons ch chars ih =>
    obtain ⟨hrun, halways⟩ := ih (receive env s ch)
    refine ⟨hrun.trans (receive_connected env s ch), ?_, halways⟩
    intro h
    cases h

/-- At any point of the main loop. -/
theorem mainLoop_connected (env : Bus) (hosts : List Host) (n : ℕ) (s : MotorTerminal F) :
    (terminalMachine env).Always UpdatesConnected s ((mainLoop hosts).take n) := by
  suffices h : (terminalMachine env).Always UpdatesConnected s (mainLoop hosts) by
    rw [← List.take_append_drop n (mainLoop hosts), Machine.always_append] at h
    exact h.1
  induction hosts generalizing s with
  | nil => trivial
  | cons host hosts ih =>
    rw [mainLoop, List.flatMap_cons, Machine.always_append]
    refine ⟨?_, ih _⟩
    rw [Host.iteration]
    obtain ⟨hchars, halways⟩ := received_connected env host.received (s.connect host.mounted)
    rw [Machine.always_append]
    refine ⟨⟨nofun, halways⟩, ?_⟩
    cases hmounted : host.mounted with
    | false => trivial
    | true =>
      refine ⟨fun _ => ?_, trivial⟩
      rw [hmounted] at hchars
      exact hchars

/-- **Nothing moves with a fault or without a host.**  At any point of the main loop, a
terminal with a fault or without a host last told every online wheel to brake; and between
the message of a fault and any frame that sets a wheel in motion after it stands the answer
that a `clear` was accepted. -/
theorem motion_only_when_safe (env : Bus) (hosts : List Host) (n : ℕ) :
    let s : MotorTerminal F := (terminalMachine env).run (boot env) ((mainLoop hosts).take n)
    (s.faulted = true ∨ s.connected = false →
      ∀ i, s.online i → lastSent s.output i = some .brake) ∧
    ∀ later between earlier i units ramp l,
      s.output = later ++ .sent i (.velocity units ramp) :: (between ++ .line l :: earlier) →
      l.isFault → ∃ o ∈ between, o.isCleared := by
  intro s
  have hsafe : Safe s :=
    Machine.run_of_guarded (fun _ _ h hhost => h.step hhost) (boot_safe env)
      (mainLoop_connected env hosts n _)
  refine ⟨hsafe.braked, ?_⟩
  intro later between earlier i units ramp l houtput hl
  have hmotion := hsafe.motion
  rw [houtput] at hmotion
  exact hmotion.reset_between rfl hl

end MotorTerminal
