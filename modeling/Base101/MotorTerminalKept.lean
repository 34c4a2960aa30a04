/-
Invariants of the motor terminal.

`Kept env G I` lists what has to be shown of an invariant `I`: that it survives a stop, a
change of the settings at rest, an accepted run and a tick.  Everything else leaves the
motion alone.  Runs may be required to start in states with `G`.  `KeptWithin I` does the
same for the parts of a tick.

* `KeptWithin.tick` — an invariant that its parts keep is kept by a tick;
* `Kept.always` — such an invariant holds at any point of any run.
-/
import Base101.MotorTerminalSafety

namespace MotorTerminal

open Double

variable {F : Type}

/-- No frame that sets a wheel in motion was sent on the way. -/
def QuietOutput (s s' : MotorTerminal F) : Prop :=
  ∃ new, s'.output = new ++ s.output ∧ ∀ o ∈ new, o.isMotion = false

theorem QuietOutput.of_eq {s s' : MotorTerminal F} (h : s'.output = s.output) : QuietOutput s s' :=
  ⟨[], h, by simp⟩

/-- The same motion and settings, and no frame that sets a wheel in motion. -/
structure Same (s s' : MotorTerminal F) : Prop where
  ticks : s.ticks ≤ s'.ticks
  output : QuietOutput s s'
  rest : s' = { s with
    nextTickUs := s'.nextTickUs, lastTickUs := s'.lastTickUs, buffer := s'.buffer
    overflow := s'.overflow, connected := s'.connected, ticks := s'.ticks, frames := s'.frames
    queries := s'.queries, output := s'.output }

variable [Double F] {env : Bus} {s s' : MotorTerminal F}

/-- The speeds a tick sends: shaped ones come from the profiles, and are not too fast. -/
def Shaped (s : MotorTerminal F) (left right : F) : Prop :=
  s.mode = .shape → left = s.shapedLeft ∧ right = s.shapedRight ∧
    ¬210.0 < fmax (fabs left) (fabs right)

/-- A stop, whatever becomes of the fault; on a brake the profiles are reset as well. -/
structure Halting (brake : Bool) (s t : MotorTerminal F) : Prop where
  target : ∀ i, t.target i = 0
  commanded : ∀ i, t.commanded i = if brake ∧ s.online i then 0 else s.commanded i
  moving : t.moving = false
  profiles : t.linearProfile = (if brake then .zero else s.linearProfile) ∧
    t.yawProfile = if brake then .zero else s.yawProfile
  rest : t = { s with
    target := t.target, commanded := t.commanded, output := t.output, moving := t.moving
    faulted := t.faulted, linearProfile := t.linearProfile, yawProfile := t.yawProfile }

theorem Halts.halting {brake : Bool} {t : MotorTerminal F} (h : Halts brake s t) :
    Halting brake s t where
  target := h.target
  commanded := h.commanded
  moving := h.moving
  profiles := h.profiles
  rest := by
    conv_lhs => rw [h.rest]
    rw [h.moving, show t.faulted = s.faulted by rw [h.rest]]

/-- The stop of a fault, wherever the profiles have got to. -/
theorem fault_halting (s : MotorTerminal F) (linear yaw : MotionProfile F) : Halting true s
    ({ s with linearProfile := linear, yawProfile := yaw, faulted := true }.stop true) := by
  have h := (stop_halts { s with linearProfile := linear, yawProfile := yaw, faulted := true }
    true).halting
  exact ⟨h.target, h.commanded, h.moving, h.profiles, h.rest⟩

theorem clear_halting (s : MotorTerminal F) :
    Halting true s { s.stop true with faulted := false } := by
  have h := (stop_halts s true).halting
  refine ⟨h.target, h.commanded, h.moving, h.profiles, ?_⟩
  exact congrArg (fun t : MotorTerminal F => { t with faulted := false }) h.rest

/-- What keeps an invariant. -/
structure Kept (env : Bus) (G I : MotorTerminal F → Prop) : Prop where
  same : ∀ {s s'}, I s → Same s s' → I s'
  halt : ∀ {s t} brake, I s → Halting brake s t → QuietOutput s t → I t
  configure : ∀ {s t}, I s → s.atRest → Configures s t → I t
  withdraw : ∀ {s} a b, I s → wheelIndices.any s.driven = false →
    I { s with target := s.runTargets a b }
  run : ∀ {s} a b c, I s → G s → s.faulted = false →
    (fabs a ≤ 200 && fabs b ≤ 200 && 0.1 ≤ c && c ≤ 10) = true →
    (s.mode = .shape → wheelIndices.all s.online) → wheelIndices.any s.driven →
    I (beginRun env s a b c)
  tick : ∀ {s} now, I s → s.faulted = false → I (tick env s now)

/-- What keeps an invariant within a tick, part by part. -/
structure KeptWithin (I : MotorTerminal F → Prop) : Prop where
  same : ∀ {s s'}, I s → Same s s' → I s'
  halt : ∀ {s t} brake, I s → Halting brake s t → QuietOutput s t → I t
  advance : ∀ {s} dt linear yaw, I s →
    motionProfileStep s.linearProfile s.profileTargets.1 s.ax s.jx dt = some linear →
    motionProfileStep s.yawProfile s.profileTargets.2 s.aw s.jw dt = some yaw →
    I { s with linearProfile := linear, yawProfile := yaw }
  drive : ∀ {s s'} left right done, I s → s.faulted = false → Shaped s left right →
    Drives left right done s s' → I s'

variable {G I : MotorTerminal F → Prop}

omit [Double F] in
theorem Same.of_eq {t : MotorTerminal F} (hticks : s.ticks ≤ t.ticks)
    (houtput : t.output = s.output)
    (hrest : t = { s with
      nextTickUs := t.nextTickUs, lastTickUs := t.lastTickUs, buffer := t.buffer
      overflow := t.overflow, connected := t.connected, ticks := t.ticks, frames := t.frames
      queries := t.queries, output := t.output }) : Same s t :=
  ⟨hticks, .of_eq houtput, hrest⟩

omit [Double F] in
theorem Same.say (s : MotorTerminal F) (l : TerminalLine F) : Same s (s.say l) :=
  ⟨Nat.le_refl _, ⟨[.line l], rfl, by simp [TerminalOutput.isMotion]⟩, rfl⟩

theorem stop_quietOutput (s : MotorTerminal F) (brake : Bool) : QuietOutput s (s.stop brake) := by
  obtain ⟨new, hnew, hquiet⟩ := (stop_quiet s brake).output
  exact ⟨new, hnew, fun o ho => (hquiet o ho).motion⟩

/-! ### Within a tick -/

theorem KeptWithin.faulted (h : KeptWithin I) (linear yaw : MotionProfile F) (hs : I s)
    (l : TerminalLine F) : I ({ s with linearProfile := linear, yawProfile := yaw }.fault l) :=
  h.same (h.halt true hs (fault_halting s linear yaw) (stop_quietOutput _ true)) (.say _ l)

theorem KeptWithin.advanceProfiles (h : KeptWithin I) (hs : I s) (dt : F) :
    I (s.advanceProfiles dt) ∧ ((s.advanceProfiles dt).faulted = false →
      Shaped (s.advanceProfiles dt) (s.advanceProfiles dt).shapedLeft
        (s.advanceProfiles dt).shapedRight) := by
  have hstep := advanceProfiles_step s dt
  generalize MotorTerminal.advanceProfiles s dt = s' at hstep
  cases hstep with
  | advanced linear yaw hlinear hyaw hslow =>
    exact ⟨h.advance dt linear yaw hs hlinear hyaw, fun _ _ => ⟨rfl, rfl, hslow⟩⟩
  | refused linear =>
    refine ⟨h.faulted linear s.yawProfile hs _, ?_⟩
    intro hnone
    rw [fault_faulted] at hnone
    cases hnone
  | fast linear yaw =>
    refine ⟨h.faulted linear yaw hs _, ?_⟩
    intro hnone
    rw [fault_faulted] at hnone
    cases hnone

theorem KeptWithin.sendWheels (h : KeptWithin I) (env : Bus) (hs : I s)
    (hfaulted : s.faulted = false) {left right : F} (hshaped : Shaped s left right) :
    I (sendWheels env left right wheelIndices s) := by
  rcases sendWheels_cases env left right wheelIndices s (by decide) with
    hall | ⟨t, done, l, -, ht, hl, heq⟩
  · exact h.drive left right _ hs hfaulted hshaped hall
  · rw [heq]
    have hdriven := h.drive left right _ hs hfaulted hshaped ht
    exact h.faulted t.linearProfile t.yawProfile hdriven l

theorem KeptWithin.tick (h : KeptWithin I) (env : Bus) (now : UInt64) (hs : I s)
    (hfault : s.faulted = false) : I (tick env s now) := by
  obtain ⟨t, ht, hcases⟩ := tick_cases env s now
  have hdue : I t := h.same hs (by rw [ht]; exact .of_eq (Nat.le_refl _) rfl rfl)
  rcases hcases with ⟨hmode, heq⟩ | ⟨hmode, heq⟩
  · rw [heq]
    obtain ⟨hadvanced, hshaped⟩ := h.advanceProfiles hdue (s.tickDt now)
    split_ifs with hstopped
    · exact hadvanced
    · have hgood := (Bool.not_eq_true _).mp hstopped
      exact h.sendWheels env hadvanced hgood (hshaped hgood)
  · rw [heq]
    refine h.sendWheels env hdue (by rw [ht, hfault]) ?_
    intro hshape
    rw [ht] at hshape
    exact absurd hshape hmode

/-! ### In every step -/

theorem Kept.say (h : Kept env G I) (hs : I s) (l : TerminalLine F) : I (s.say l) :=
  h.same hs (.say s l)

theorem Kept.stop (h : Kept env G I) (brake : Bool) (hs : I s) : I (s.stop brake) :=
  h.halt brake hs (stop_halts s brake).halting (stop_quietOutput s brake)

theorem Kept.commandClear (h : Kept env G I) (hs : I s) : I (commandClear env s) := by
  obtain ⟨queries, heq | ⟨-, heq⟩⟩ := commandClear_cases env s
  · rw [heq]
    refine h.say ?_ _
    exact h.same (h.stop true hs) (.of_eq (Nat.le_refl _) rfl rfl)
  · rw [heq]
    refine h.say ?_ _
    have hcleared : I { s.stop true with faulted := false } :=
      h.halt true hs (clear_halting s) (stop_quietOutput s true)
    exact h.same hcleared (.of_eq (Nat.le_succ _) rfl rfl)

/-- A run was accepted on the way to `s'`: its answer is new. -/
def acceptsRun (s s' : MotorTerminal F) : Bool :=
  s.output.length < s'.output.length && s'.output.head?.any TerminalOutput.isRan

/-- The accepted runs of an event start in states with `G`. -/
def Starts (env : Bus) (G : MotorTerminal F → Prop) (s : MotorTerminal F) (e : Event) : Prop :=
  acceptsRun s (step env s e) → G s

instance (env : Bus) (G : MotorTerminal F → Prop) [DecidablePred G] (s : MotorTerminal F)
    (e : Event) : Decidable (Starts env G s e) := inferInstanceAs (Decidable (_ → _))

theorem Kept.command (h : Kept env G I) (hs : I s) (line : List Char)
    (hG : acceptsRun s (command env s line) → G s) : I (command env s line) := by
  have hstep := command_step env s line
  generalize MotorTerminal.command env s line = s' at hstep hG
  cases hstep with
  | answered lines =>
    refine h.same hs ⟨Nat.le_refl _, ⟨lines.map .line, rfl, ?_⟩, rfl⟩
    simp [TerminalOutput.isMotion]
  | stopped brake => exact h.say (h.stop brake hs) _
  | cleared => exact h.commandClear hs
  | configured t hrest hset => exact h.say (h.configure hs hrest hset) _
  | unselected a b hfault hnone => exact h.say (h.withdraw a b hs hnone) _
  | ran a b c hnumbers hfault hall hany =>
    refine h.run a b c hs (hG ?_) hfault hnumbers hall hany
    rw [acceptsRun, (beginRun_same env s a b c).1]
    simp [TerminalOutput.isRan, TerminalLine.isRan]

theorem Kept.finishRun (h : Kept env G I) (hs : I s) (now : UInt64) : I (s.finishRun now) := by
  rw [MotorTerminal.finishRun]
  split
  · exact h.say (h.stop false hs) _
  · exact hs

theorem Kept.update (h : Kept env G I) (hs : I s) : I (update env s) := by
  rw [MotorTerminal.update]
  split_ifs with hfault
  · exact hs
  · set t : MotorTerminal F := { s with ticks := s.ticks + 1 } with ht
    have hread : I t := h.same hs (.of_eq (Nat.le_succ _) rfl rfl)
    have hfinished := h.finishRun hread (env.clock s.ticks)
    have hsame := finishRun_faulted t (env.clock s.ticks)
    show I (if _ then _ else _)
    split
    · exact hfinished
    · exact h.tick _ hfinished (hsame.1.trans (by simpa using hfault))

theorem Kept.connect (h : Kept env G I) (hs : I s) (mounted : Bool) : I (s.connect mounted) := by
  have hleft : I (if s.connected && !mounted then (s.stop true).dropLine else s) := by
    split
    · exact h.same (h.stop true hs) (.of_eq (Nat.le_refl _) rfl rfl)
    · exact hs
  rw [MotorTerminal.connect]
  generalize (if s.connected && !mounted then (s.stop true).dropLine else s) = t at hleft
  have hgreeted : I (if !t.connected && mounted then (t.say .help).say .settings else t) := by
    split
    · exact h.say (h.say hleft _) _
    · exact hleft
  exact h.same hgreeted (.of_eq (Nat.le_refl _) rfl rfl)

theorem Kept.receive (h : Kept env G I) (hs : I s) (ch : Char)
    (hG : acceptsRun s (receive env s ch) → G s) : I (receive env s ch) := by
  rw [MotorTerminal.receive] at hG ⊢
  split_ifs at hG ⊢
  · refine h.say ?_ _
    exact h.same (h.stop true hs) (.of_eq (Nat.le_refl _) rfl rfl)
  · refine h.same (h.command hs _ ?_) (.of_eq (Nat.le_refl _) rfl rfl)
    exact hG
  · refine h.same (h.say hs _) (.of_eq (Nat.le_refl _) rfl rfl)
  · exact h.same hs (.of_eq (Nat.le_refl _) rfl rfl)
  · exact h.same hs (.of_eq (Nat.le_refl _) rfl rfl)
  · exact h.same hs (.of_eq (Nat.le_refl _) rfl rfl)

theorem Kept.step (h : Kept env G I) (hs : I s) {e : Event} (hG : Starts env G s e) :
    I (step env s e) := by
  cases e with
  | poll mounted => exact h.connect hs mounted
  | received ch => exact h.receive hs ch hG
  | update => exact h.update hs

/-- The start-up finds which wheels are there, and brakes these. -/
theorem boot_eq (env : Bus) : ∃ online queries output, (boot env : MotorTerminal F) =
    { initial with online := online, queries := queries, output := output } ∧
    ∀ o ∈ output, o.isMotion = false := by
  have hloop (is : List (Fin 4)) : ∀ s : MotorTerminal F, (∀ o ∈ s.output, o.isMotion = false) →
      ∃ online queries output, is.foldl (beginWheel env) s =
        { s with online := online, queries := queries, output := output } ∧
        ∀ o ∈ output, o.isMotion = false := by
    induction is with
    | nil => exact fun s hs => ⟨_, _, _, rfl, hs⟩
    | cons i is ih =>
      intro s hs
      have hprobe : ∃ online queries output, beginWheel env s i =
          { s with online := online, queries := queries, output := output } ∧
          ∀ o ∈ output, o.isMotion = false := by
        simp only [beginWheel, MotorTerminal.say, send]
        split_ifs
        all_goals exact ⟨_, _, _, rfl, by simpa [TerminalOutput.isMotion] using hs⟩
      obtain ⟨online, queries, output, heq, houtput⟩ := hprobe
      rw [List.foldl_cons, heq]
      exact ih _ houtput
  exact hloop wheelIndices initial (by simp [initial])

/-- From any state that satisfies it. -/
theorem Kept.run_from (h : Kept env G I) (hs : I s) {events : List Event}
    (hG : (terminalMachine env).Always (Starts env G) s events) :
    I ((terminalMachine env).run s events) := by
  have hstep : ∀ s e, I s → Starts env G s e → I ((terminalMachine env).step s e) :=
    fun _ _ hs hstarts => h.step hs hstarts
  exact Machine.run_of_guarded hstep hs hG

/-- **An invariant that is kept holds at any point of any run.** -/
theorem Kept.always (h : Kept env G I)
    (hboot : ∀ online queries output, (∀ o ∈ output, o.isMotion = false) →
      I { initial with online := online, queries := queries, output := output })
    {events : List Event} (hG : (terminalMachine env).Always (Starts env G) (boot env) events) :
    I ((terminalMachine env).run (boot env) events) := by
  have hstart : I (boot env) := by
    obtain ⟨online, queries, output, heq, houtput⟩ := boot_eq (F := F) env
    rw [heq]
    exact hboot online queries output houtput
  exact h.run_from hstart hG

/-- Without a condition on the runs. -/
theorem Kept.run_always (h : Kept env (fun _ => True) I)
    (hboot : ∀ online queries output, (∀ o ∈ output, o.isMotion = false) →
      I { initial with online := online, queries := queries, output := output })
    (events : List Event) : I ((terminalMachine env).run (boot env) events) := by
  have hall : ∀ s e, True → True → Starts env (fun _ : MotorTerminal F => True) s e :=
    fun _ _ _ _ _ => trivial
  exact h.always hboot
    (Machine.always_of_guarded (fun _ _ _ _ => trivial) hall trivial Machine.always_true)

end MotorTerminal
