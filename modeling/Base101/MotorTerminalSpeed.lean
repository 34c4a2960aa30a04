/-
The speeds the motor terminal sends.

* `refused_changes_nothing` — a command that is refused changes nothing;
* `speeds_bounded` — every frame that sets a wheel in motion is within 210 RPM, with a
  ramp of at least 0.1 ms/RPM;
* `run_window` — ten seconds after the last accepted run no wheel has a target.
-/
import Base101.MotorTerminalKept
import Base101.Quantization

namespace MotorTerminal

open Double

section Any

variable {F : Type} [Double F] {env : Bus} {s s' : MotorTerminal F}

/-! ### Targets -/

/-- Without a run there is no target, and a run has at least one motor. -/
structure Settled (s : MotorTerminal F) : Prop where
  idle : s.moving = false → ∀ i, s.target i = 0
  faulted : s.faulted = true → s.moving = false
  driven : s.moving = true → wheelIndices.any s.driven = true
  shape : s.mode = .shape → s.selected = -1

theorem Settled.halted (h : Settled s) {brake : Bool} (hs' : Halting brake s s') : Settled s' where
  idle _ := hs'.target
  faulted _ := hs'.moving
  driven hmoving := by
    rw [hs'.moving] at hmoving
    cases hmoving
  shape hshape := by
    rw [hs'.rest] at hshape ⊢
    exact h.shape hshape

theorem moving_of_atRest (h : s.atRest) : s.moving = false := by
  simp only [atRest, Bool.and_eq_true, Bool.not_eq_true'] at h
  exact h.1.1

theorem Configures.moving (h : Configures s s') : s'.moving = s.moving := by
  cases h <;> rfl

theorem Settled.configured (h : Settled s) (hrest : s.atRest) (hset : Configures s s') :
    Settled s' := by
  have hmoving := moving_of_atRest hrest
  have hdriven {P : Prop} (hs : s.moving = true) : P := by
    rw [hmoving] at hs
    cases hs
  cases hset with
  | mode m hall => exact ⟨h.idle, h.faulted, hdriven, hall⟩
  | shape => exact ⟨h.idle, h.faulted, hdriven, h.shape⟩
  | hardware => exact ⟨h.idle, h.faulted, hdriven, h.shape⟩
  | software a ha =>
    refine ⟨h.idle, h.faulted, hdriven, ?_⟩
    intro hshape
    simp only [resetProfiles] at hshape
    split at hshape <;> cases hshape
  | select k hk =>
    refine ⟨h.idle, h.faulted, hdriven, ?_⟩
    intro hshape
    simp only [selectWheel] at hshape ⊢
    by_contra hk'
    split at hshape
    · cases hshape
    · next hkept => exact hkept ⟨hk', hshape⟩

/-- Without a motor to run there is no target. -/
theorem runTargets_of_none (hnone : wheelIndices.any s.driven = false) (a b : F) :
    s.runTargets a b = fun _ => 0 := by
  funext i
  have hi : s.driven i = false := by
    have hall := List.any_eq_false.mp hnone i (mem_wheelIndices i)
    simpa using hall
  rw [runTargets, hi]
  rfl

theorem beginRun_eq (env : Bus) (s : MotorTerminal F) (a b c : F) :
    ∃ lastTickUs ticks, ticks ≤ s.ticks + 1 ∧ s.ticks ≤ ticks ∧ beginRun env s a b c =
      { s with
        target := s.runTargets a b, moving := true, lastTickUs := lastTickUs, ticks := ticks + 1
        untilUs := env.clock ticks + UInt64.ofNat (toInt (c * 1000000.0)).toNat
        output := .line (.ran a b c) :: s.output } := by
  rw [beginRun]
  simp only [MotorTerminal.say]
  split
  · exact ⟨_, s.ticks + 1, Nat.le_refl _, Nat.le_succ _, rfl⟩
  · exact ⟨_, s.ticks, Nat.le_succ _, Nat.le_refl _, rfl⟩

theorem settled_keptWithin : KeptWithin (Settled (F := F)) where
  same h hsame := by
    rw [hsame.rest]
    exact ⟨h.idle, h.faulted, h.driven, h.shape⟩
  halt _ h hhalts _ := h.halted hhalts
  advance _ _ _ h _ _ := ⟨h.idle, h.faulted, h.driven, h.shape⟩
  drive _ _ _ h _ _ hdrives := by
    rw [hdrives.rest]
    exact ⟨h.idle, h.faulted, h.driven, h.shape⟩

theorem settled_kept (env : Bus) : Kept env (fun _ => True) (Settled (F := F)) where
  same := settled_keptWithin.same
  halt := settled_keptWithin.halt
  configure h hrest hset := h.configured hrest hset
  withdraw a b h hnone := by
    refine ⟨?_, h.faulted, h.driven, h.shape⟩
    intro _ i
    rw [runTargets_of_none hnone]
  run {s} a b c h _ hfault _ _ hany := by
    obtain ⟨last, ticks, -, -, heq⟩ := beginRun_eq env s a b c
    rw [heq]
    refine ⟨nofun, ?_, fun _ => hany, h.shape⟩
    intro hfaulted
    rw [hfault] at hfaulted
    cases hfaulted
  tick now := settled_keptWithin.tick env now

theorem settled_initial (online : Fin 4 → Bool) (queries : ℕ) (output : List (TerminalOutput F)) :
    Settled { initial with online := online, queries := queries, output := output } :=
  ⟨fun _ _ => rfl, fun _ => rfl, nofun, fun _ => rfl⟩

/-- In every reachable state. -/
theorem run_settled (env : Bus) (events : List Event) :
    Settled ((terminalMachine env).run (boot env : MotorTerminal F) events) :=
  (settled_kept env).run_always (fun _ _ _ _ => settled_initial _ _ _) events

/-- The refusals; that of `clear` is not one of them, since `clear` brakes first. -/
def refusals : List String :=
  ["ERR too many arguments", "ERR mode; shape requires wheel all", "ERR settings only at rest",
    "ERR wheel index", "ERR fault latched; reboot after checking motor feedback",
    "ERR shape requires all four motors online", "ERR no selected motor online",
    "ERR invalid command or selection while moving; help"]

/-- **A command that is refused changes nothing** but the output, in every reachable state. -/
theorem refused_changes_nothing (env : Bus) (events : List Event) (line : List Char) :
    let s : MotorTerminal F := (terminalMachine env).run (boot env) events
    let s' := command env s line
    (∃ text ∈ refusals, s'.output.head? = some (.line (.text text))) →
      s' = { s with output := s'.output } := by
  intro s s'
  have hsettled : Settled s := run_settled env events
  have hstep : CommandStep env s s' := command_step env s line
  generalize s' = s' at hstep
  generalize s = s at hstep hsettled
  rintro ⟨text, htext, houtput⟩
  cases hstep with
  | answered lines => rfl
  | stopped brake answer hanswer =>
    -- a stop is always accepted
    have heq : answer = text := by simpa [MotorTerminal.say] using houtput
    rw [← heq] at htext
    rcases hanswer with rfl | rfl
    · exact absurd htext (by decide)
    · exact absurd htext (by decide)
  | cleared =>
    obtain ⟨queries, hclear | ⟨-, hclear⟩⟩ := commandClear_cases env s
    · rw [hclear] at houtput
      have heq : "ERR clear: motor mode/reply missing; fault remains" = text := by
        simpa [MotorTerminal.say] using houtput
      rw [← heq] at htext
      exact absurd htext (by decide)
    · rw [hclear] at houtput
      have heq : "OK cleared; stopped" = text := by simpa [MotorTerminal.say] using houtput
      rw [← heq] at htext
      exact absurd htext (by decide)
  | configured t hrest hset => simp [MotorTerminal.say] at houtput
  | unselected a b hfault hnone =>
    -- the targets that were assigned are the old ones: none
    have htarget : s.target = fun _ => 0 := by
      cases hmoving : s.moving with
      | false => exact funext (hsettled.idle hmoving)
      | true =>
        have hdriven := hsettled.driven hmoving
        rw [hnone] at hdriven
        cases hdriven
    rw [runTargets_of_none hnone, ← htarget]
    rfl
  | ran a b c =>
    rw [(beginRun_same env s a b c).1] at houtput
    simp at houtput

/-! ### The window of a run -/

/-- A run that goes on ends by `bound`. -/
def EndsBy (bound : ℕ) (s : MotorTerminal F) : Prop := s.moving = true → s.untilUs.toNat ≤ bound

omit [Double F] in
theorem endsBy_of_still {bound : ℕ} (h : s.moving = false) : EndsBy bound s := by
  intro hmoving
  rw [h] at hmoving
  cases hmoving

/-- The motion stays withdrawn, or ends as it was to end, whatever is said in a tick. -/
theorem endsBy_keptWithin (bound : ℕ) : KeptWithin (EndsBy (F := F) bound) where
  same h hsame := by
    rw [hsame.rest]
    exact h
  halt _ _ hhalts _ := endsBy_of_still hhalts.moving
  advance _ _ _ h _ _ := h
  drive _ _ _ h _ _ hdrives := by
    rw [hdrives.rest]
    exact h

/-- Without a new run the end is fixed. -/
theorem endsBy_kept (env : Bus) (bound : ℕ) :
    Kept env (fun _ => False) (EndsBy (F := F) bound) where
  same := (endsBy_keptWithin bound).same
  halt := (endsBy_keptWithin bound).halt
  configure _ hrest hset := endsBy_of_still (hset.moving.trans (moving_of_atRest hrest))
  withdraw _ _ h _ := h
  run _ _ _ _ hfalse := hfalse.elim
  tick now := (endsBy_keptWithin bound).tick env now

/-- A tick begins no motion. -/
theorem still_keptWithin : KeptWithin (fun s : MotorTerminal F => s.moving = false) where
  same h hsame := by
    rw [hsame.rest]
    exact h
  halt _ _ hhalts _ := hhalts.moving
  advance _ _ _ h _ _ := h
  drive _ _ _ h _ _ hdrives := by
    rw [hdrives.rest]
    exact h

/-- An update at the end of the run or after it leaves the motion withdrawn. -/
theorem update_ends {bound : ℕ} (hsettled : Settled s) (hends : EndsBy bound s)
    (hnow : bound ≤ (env.clock s.ticks).toNat) : (update env s).moving = false := by
  rw [update]
  split_ifs with hfault
  · exact hsettled.faulted hfault
  · set t : MotorTerminal F := { s with ticks := s.ticks + 1 } with ht
    have hfinished : (t.finishRun (env.clock s.ticks)).moving = false := by
      rw [finishRun]
      split
      · exact (stop_halts t false).moving
      · next hgoes =>
        by_contra hmoving
        have huntil := hends (by simpa using hmoving)
        refine hgoes ?_
        rw [Bool.and_eq_true, decide_eq_true_eq]
        exact ⟨by simpa using hmoving, UInt64.le_iff_toNat_le.mpr (huntil.trans hnow)⟩
    have hgood : (t.finishRun (env.clock s.ticks)).faulted = false :=
      (finishRun_faulted t _).1.trans (by simpa using hfault)
    show MotorTerminal.moving (if _ then _ else _) = false
    split
    · exact hfinished
    · exact still_keptWithin.tick env _ hfinished hgood

end Any

section Exact

variable {K : Type} [Field K] [LinearOrder K] [IsStrictOrderedRing K] [FloorRing K] [Libm K]
  {env : Bus} {s s' : MotorTerminal K}

/-! ### Speeds -/

/-- Targets within 200 RPM, speeds within 210 RPM, and only shaped ones above 200. -/
structure SpeedBounded (s : MotorTerminal K) : Prop where
  target : ∀ i, |s.target i| ≤ 200
  commanded : ∀ i, |s.commanded i| ≤ 210
  unshaped : s.mode ≠ .shape → ∀ i, |s.commanded i| ≤ 200
  ramp : s.hardwareAccel ≠ 0
  frames : ∀ i units ramp, .sent i (.velocity units ramp) ∈ s.output →
    |units| ≤ 2100 ∧ ramp ≠ 0 ∧ s.online i

omit [IsStrictOrderedRing K] in
theorem abs_commanded_of_atRest (h : s.atRest) (i : Fin 4) : |s.commanded i| ≤ 0.01 := by
  simp only [atRest, Bool.and_eq_true, List.all_eq_true, Bool.not_eq_true',
    decide_eq_false_iff_not, not_lt] at h
  exact h.1.2 i (mem_wheelIndices i)

omit [FloorRing K] [Libm K] in
/-- A clamped step toward the target stays between the two. -/
theorem abs_add_clamped_le {c t step : K} (hstep : 0 ≤ step) (hc : |c| ≤ 200) (ht : |t| ≤ 200) :
    |c + max (-step) (min step (t - c))| ≤ 200 := by
  obtain ⟨hc₁, hc₂⟩ := abs_le.mp hc
  obtain ⟨ht₁, ht₂⟩ := abs_le.mp ht
  rw [abs_le]
  rcases le_total (t - c) 0 with hdown | hup
  · have hle : max (-step) (min step (t - c)) ≤ 0 :=
      max_le (by linarith) ((min_le_right _ _).trans hdown)
    have hge : t - c ≤ max (-step) (min step (t - c)) := by
      rw [min_eq_right (hdown.trans hstep)]
      exact le_max_right _ _
    constructor
    · linarith
    · linarith
  · have hge : 0 ≤ max (-step) (min step (t - c)) := le_max_of_le_right (le_min hstep hup)
    have hle : max (-step) (min step (t - c)) ≤ t - c :=
      max_le (by linarith) (min_le_right _ _)
    constructor
    · linarith
    · linarith

theorem nextCommanded_bounded (h : SpeedBounded s) {left right : K} (hshaped : Shaped s left right)
    (i : Fin 4) : |s.nextCommanded left right i| ≤ 210 ∧
      (s.mode ≠ .shape → |s.nextCommanded left right i| ≤ 200) := by
  have hflush (c : K) : |if fabs c < 1e-6 then 0 else c| ≤ |c| := by
    split
    · rw [abs_zero]
      exact abs_nonneg c
    · exact le_refl _
  by_cases hmode : s.mode = .shape
  · obtain ⟨-, -, hslow⟩ := hshaped hmode
    have hsides : |left| ≤ 210 ∧ |right| ≤ 210 := by
      have hmax : max |left| |right| ≤ 210 := by
        have hle := not_lt.mp hslow
        norm_num at hle
        simpa using hle
      exact max_le_iff.mp hmax
    refine ⟨?_, fun hne => absurd hmode hne⟩
    rw [nextCommanded]
    simp only [hmode, if_true]
    refine (hflush _).trans ?_
    split
    · exact hsides.1
    · exact hsides.2
  · have hbound : |s.nextCommanded left right i| ≤ 200 := by
      rw [nextCommanded]
      simp only [hmode, if_false]
      refine (hflush _).trans ?_
      split
      · next hlinear =>
        refine abs_add_clamped_le ?_ (h.unshaped hmode i) (h.target i)
        have hpos : (0 : K) < s.softwareAccel := hlinear.2
        rw [twoPi]
        positivity
      · rw [add_sub_cancel]
        exact h.target i
    exact ⟨hbound.trans (by norm_num), fun _ => hbound⟩

theorem velocityUnits_bounded {commanded : K} (h : |commanded| ≤ 210) (i : Fin 4) :
    |velocityUnits commanded i| ≤ 2100 := by
  have hdirection : |((wheelTable i).direction : K)| = 1 := by
    fin_cases i <;> simp [wheelTable]
  have hscaled : |commanded * ((wheelTable i).direction : K) * 10| ≤ (2100 : ℤ) := by
    rw [abs_mul, abs_mul, hdirection, abs_of_nonneg (by norm_num : (0 : K) ≤ 10)]
    push_cast
    linarith
  have hrounded : |roundHalfAway (commanded * ((wheelTable i).direction : K) * 10)| ≤ 2100 := by
    rw [← roundHalfAway_abs]
    exact (roundHalfAway_le_of_nonneg (abs_nonneg _) hscaled).trans_eq (roundHalfAway_intCast 2100)
  obtain ⟨hlow, hhigh⟩ := abs_le.mp hrounded
  have hunits : velocityUnits commanded i =
      roundHalfAway (commanded * ((wheelTable i).direction : K) * 10) := by
    show (Int16.ofInt (roundHalfAway _)).toInt = _
    rw [Int16.toInt_ofInt_of_le]
    · omega
    · omega
  rw [hunits]
  exact hrounded

theorem SpeedBounded.halted (h : SpeedBounded s) {brake : Bool} (hs' : Halting brake s s')
    (hquiet : QuietOutput s s') : SpeedBounded s' := by
  have hcommanded (i : Fin 4) : |s'.commanded i| ≤ |s.commanded i| := by
    rw [hs'.commanded i]
    split
    · rw [abs_zero]
      exact abs_nonneg _
    · exact le_refl _
  obtain ⟨new, hnew, hquiet⟩ := hquiet
  refine ⟨?_, fun i => (hcommanded i).trans (h.commanded i), ?_, ?_, ?_⟩
  · intro i
    rw [hs'.target i, abs_zero]
    norm_num
  · intro hmode i
    rw [hs'.rest] at hmode
    exact (hcommanded i).trans (h.unshaped hmode i)
  · rw [hs'.rest]
    exact h.ramp
  · intro i units ramp hsent
    rw [hs'.rest]
    rw [hnew] at hsent
    rcases List.mem_append.mp hsent with hsent | hsent
    · cases hquiet _ hsent
    · exact h.frames i units ramp hsent

theorem SpeedBounded.configured (h : SpeedBounded s) (hrest : s.atRest) (hset : Configures s s') :
    SpeedBounded s' := by
  have hslow (i : Fin 4) : |s.commanded i| ≤ 200 :=
    (abs_commanded_of_atRest hrest i).trans (by norm_num)
  cases hset with
  | mode m hall => exact ⟨h.target, h.commanded, fun _ => hslow, h.ramp, h.frames⟩
  | shape => exact ⟨h.target, h.commanded, h.unshaped, h.ramp, h.frames⟩
  | hardware a ha =>
    refine ⟨h.target, h.commanded, h.unshaped, ?_, h.frames⟩
    simp only [Bool.and_eq_true, decide_eq_true_eq] at ha
    obtain ⟨⟨hone, hbyte⟩, -⟩ := ha
    show UInt8.ofNat (toInt a).toNat ≠ 0
    rw [toInt_of_nonneg (by linarith)]
    have hlow : 1 ≤ ⌊a⌋ := Int.le_floor.mpr (by simpa using hone)
    have hhigh : ⌊a⌋ ≤ 255 := Int.floor_le_iff.mpr (by push_cast; linarith)
    intro hzero
    have hnat := congrArg UInt8.toNat hzero
    rw [UInt8.toNat_ofNat', UInt8.toNat_zero] at hnat
    omega
  | software => exact ⟨h.target, h.commanded, fun _ => hslow, h.ramp, h.frames⟩
  | select => exact ⟨h.target, h.commanded, fun _ => hslow, h.ramp, h.frames⟩

theorem SpeedBounded.driven (h : SpeedBounded s) {left right : K} {done : List (Fin 4)}
    (hshaped : Shaped s left right) (hs' : Drives left right done s s') : SpeedBounded s' := by
  have hnext := nextCommanded_bounded h hshaped
  obtain ⟨new, hnew, hmotions⟩ := hs'.emits.output
  have hcommanded {bound : K} (hold : ∀ i, |s.commanded i| ≤ bound)
      (hnew : ∀ i, |s.nextCommanded left right i| ≤ bound) (i : Fin 4) :
      |s'.commanded i| ≤ bound := by
    rw [hs'.commanded i]
    split
    · exact hnew i
    · exact hold i
  refine ⟨?_, hcommanded h.commanded fun i => (hnext i).1, ?_, ?_, ?_⟩
  · rw [hs'.rest]
    exact h.target
  · intro hmode
    rw [hs'.rest] at hmode
    exact hcommanded (h.unshaped hmode) fun i => (hnext i).2 hmode
  · rw [hs'.rest]
    exact h.ramp
  · intro i units ramp hsent
    rw [hs'.emits.online]
    rw [hnew] at hsent
    rcases List.mem_append.mp hsent with hsent | hsent
    · obtain ⟨j, -, honline, heq⟩ := hmotions _ hsent
      injection heq with hij hframe
      injection hframe with hunits hramp
      subst hij hunits hramp
      exact ⟨velocityUnits_bounded (hnext i).1 i, h.ramp, honline⟩
    · exact h.frames i units ramp hsent

theorem speedBounded_keptWithin : KeptWithin (SpeedBounded (K := K)) where
  same {s s'} h hsame := by
    obtain ⟨new, hnew, hquiet⟩ := hsame.output
    rw [hsame.rest]
    refine ⟨h.target, h.commanded, h.unshaped, h.ramp, ?_⟩
    intro i units ramp hsent
    change _ ∈ s'.output at hsent
    rw [hnew] at hsent
    rcases List.mem_append.mp hsent with hsent | hsent
    · cases hquiet _ hsent
    · exact h.frames i units ramp hsent
  halt _ h hhalts hquiet := h.halted hhalts hquiet
  advance _ _ _ h _ _ := ⟨h.target, h.commanded, h.unshaped, h.ramp, h.frames⟩
  drive _ _ _ h _ hshaped hdrives := h.driven hshaped hdrives

theorem speedBounded_kept (env : Bus) : Kept env (fun _ => True) (SpeedBounded (K := K)) where
  same := speedBounded_keptWithin.same
  halt := speedBounded_keptWithin.halt
  configure h hrest hset := h.configured hrest hset
  withdraw a b h hnone := by
    refine ⟨?_, h.commanded, h.unshaped, h.ramp, h.frames⟩
    intro i
    rw [runTargets_of_none hnone, abs_zero]
    norm_num
  run {s} a b c h _ _ hnumbers _ _ := by
    obtain ⟨last, ticks, -, -, heq⟩ := beginRun_eq env s a b c
    simp only [Bool.and_eq_true, decide_eq_true_eq, fabs_exact] at hnumbers
    obtain ⟨⟨⟨ha, hb⟩, -⟩, -⟩ := hnumbers
    rw [heq]
    refine ⟨?_, h.commanded, h.unshaped, h.ramp, ?_⟩
    · intro i
      show |s.runTargets a b i| ≤ 200
      rw [runTargets]
      split_ifs
      · exact ha
      · exact hb
      · rw [abs_zero]
        norm_num
    · intro i units ramp hsent
      refine h.frames i units ramp ?_
      simpa using hsent
  tick now := speedBounded_keptWithin.tick env now

theorem speedBounded_initial (online : Fin 4 → Bool) (queries : ℕ)
    (output : List (TerminalOutput K)) (hquiet : ∀ o ∈ output, o.isMotion = false) : SpeedBounded
      { initial with online := online, queries := queries, output := output } := by
  have hzero (bound : K) (hbound : 0 ≤ bound) (_ : Fin 4) : |(0 : K)| ≤ bound := by
    rwa [abs_zero]
  refine ⟨hzero 200 (by norm_num), hzero 210 (by norm_num),
    fun _ => hzero 200 (by norm_num), ?_, ?_⟩
  · show (1 : UInt8) ≠ 0
    decide
  · intro i units ramp hsent
    cases hquiet _ hsent

/-- **Every frame that sets a wheel in motion is bounded**: within 210 RPM, or 200 RPM
without shaping, to a wheel that is online, with a ramp of the motor's own.  The arithmetic is
exact: doubles may leave the commanded speeds a rounding above 200. -/
theorem speeds_bounded (env : Bus) (events : List Event) :
    let s : MotorTerminal K := (terminalMachine env).run (boot env) events
    (∀ i units ramp, .sent i (.velocity units ramp) ∈ s.output →
      |units| ≤ ddsm210MaxSpeedRaw ∧ ramp ≠ 0 ∧ s.online i) ∧
    (∀ i, |s.target i| ≤ 200) ∧ (s.mode ≠ .shape → ∀ i, |s.commanded i| ≤ 200) := by
  intro s
  have h : SpeedBounded s :=
    (speedBounded_kept env).run_always (fun _ _ _ => speedBounded_initial _ _ _) events
  exact ⟨h.frames, h.target, h.unshaped⟩

/-! ### A bus to try -/

/-- Motors that always answer, and a clock that is read once in a period. -/
def calmBus (periodUs : ℕ) : Bus where
  clock k := UInt64.ofNat (min (periodUs * k) 1000000000)
  clock_mono i j h := by
    have hlt (k : ℕ) : min (periodUs * k) 1000000000 < UInt64.size := by
      have hcap := min_le_right (periodUs * k) 1000000000
      have hsize : UInt64.size = 18446744073709551616 := rfl
      omega
    rw [UInt64.le_iff_toNat_le, UInt64.toNat_ofNat_of_lt' (hlt i),
      UInt64.toNat_ofNat_of_lt' (hlt j)]
    exact min_le_min_right _ (Nat.mul_le_mul_left _ h)
  reply _ := { received := true, feedback1 := 0, errorCode := 0, temperature := 20 }
  mode _ := ddsm210ModeVelocity
  port _ := true

/-- A host that types `text`, and some updates. -/
def session (text : String) (updates : ℕ) : List Event :=
  .poll true :: text.toList.map .received ++ List.replicate updates .update

/-- The wheel is not one of the four. -/
theorem refused_changes_nothing_wheel :
    let s : MotorTerminal ℚ :=
      (terminalMachine (calmBus 20000)).run (boot (calmBus 20000)) (session "mode hw\r" 1)
    let s' := command (calmBus 20000) s "wheel 4".toList
    s' = { s with output := s'.output } :=
  refused_changes_nothing (F := ℚ) (calmBus 20000) (session "mode hw\r" 1) "wheel 4".toList
    (by decide +kernel)

/-- Turning in place in the mode `hw`. -/
theorem speeds_bounded_turn :
    let s : MotorTerminal ℚ :=
      (terminalMachine (calmBus 20000)).run (boot (calmBus 20000))
        (session "mode hw\rrun 60 -60 1\r" 1)
    .sent 1 (.velocity 600 1) ∈ s.output ∧ (∀ i, |s.target i| ≤ 200) ∧
      ∀ i units ramp, .sent i (.velocity units ramp) ∈ s.output → |units| ≤ 2100 := by
  obtain ⟨hframes, htarget, -⟩ :=
    speeds_bounded (K := ℚ) (calmBus 20000) (session "mode hw\rrun 60 -60 1\r" 1)
  refine ⟨by decide +kernel, htarget, ?_⟩
  intro i units ramp hsent
  exact (hframes i units ramp hsent).1

/-! ### Ten seconds -/

/-- A run ends within ten seconds of the clock. -/
def Windowed (env : Bus) (s : MotorTerminal K) : Prop :=
  EndsBy ((env.clock s.ticks).toNat + 10000000) s

omit [IsStrictOrderedRing K] in
/-- The clock does not go back. -/
theorem windowed_keptWithin (env : Bus) : KeptWithin (Windowed (K := K) env) where
  same {s s'} h hsame hmoving := by
    have hclock := UInt64.le_iff_toNat_le.mp (env.clock_mono _ _ hsame.ticks)
    rw [hsame.rest] at hmoving
    have hbound := h hmoving
    rw [hsame.rest]
    show s.untilUs.toNat ≤ (env.clock s'.ticks).toNat + 10000000
    omega
  halt _ _ hhalts _ := endsBy_of_still hhalts.moving
  advance _ _ _ h _ _ := h
  drive _ _ _ h _ _ hdrives := by
    rw [hdrives.rest]
    exact h

theorem windowed_kept (env : Bus) : Kept env (fun _ => True) (Windowed (K := K) env) where
  same := (windowed_keptWithin env).same
  halt := (windowed_keptWithin env).halt
  configure _ hrest hset := endsBy_of_still (hset.moving.trans (moving_of_atRest hrest))
  withdraw _ _ h _ := h
  run {s} a b c h _ _ hnumbers _ _ := by
    obtain ⟨last, ticks, -, -, heq⟩ := beginRun_eq env s a b c
    simp only [Bool.and_eq_true, decide_eq_true_eq] at hnumbers
    obtain ⟨⟨-, hlow⟩, hhigh⟩ := hnumbers
    have hfloor : ⌊c * 1000000.0⌋ ≤ 10000000 := by
      refine Int.floor_le_iff.mpr ?_
      norm_num
      linarith
    have hpos : (0 : K) ≤ c * 1000000.0 := by
      norm_num at hlow ⊢
      linarith
    have hadd (x y : UInt64) : (x + y).toNat ≤ x.toNat + y.toNat := by
      rw [UInt64.toNat_add]
      exact Nat.mod_le _ _
    have hlater := UInt64.le_iff_toNat_le.mp (env.clock_mono ticks (ticks + 1) (Nat.le_succ _))
    rw [heq]
    intro _
    show (env.clock ticks + UInt64.ofNat (toInt (c * 1000000.0)).toNat).toNat ≤
      (env.clock (ticks + 1)).toNat + 10000000
    rw [toInt_of_nonneg hpos]
    refine (hadd _ _).trans ?_
    have hofNat : (UInt64.ofNat ⌊c * 1000000.0⌋.toNat).toNat ≤ 10000000 := by
      rw [UInt64.toNat_ofNat']
      refine (Nat.mod_le _ _).trans ?_
      omega
    omega
  tick now := (windowed_keptWithin env).tick env now

/-- **A run is bounded in time.**  If no run is accepted in the events `after`, an update
ten seconds or more after the start of these leaves no wheel with a target. -/
theorem run_window (env : Bus) (before after : List Event) :
    let s : MotorTerminal K := (terminalMachine env).run (boot env) before
    let s' := (terminalMachine env).run s after
    (terminalMachine env).Always (Starts env fun _ => False) s after →
    (env.clock s.ticks).toNat + 10000000 ≤ (env.clock s'.ticks).toNat →
    ∀ i, (update env s').target i = 0 := by
  intro s s' hnone hlate
  have hwindow : Windowed env s := by
    refine (windowed_kept env).run_always ?_ before
    intro online queries output _
    exact endsBy_of_still rfl
  have hends : EndsBy ((env.clock s.ticks).toNat + 10000000) s' :=
    (endsBy_kept env _).run_from hwindow hnone
  have hsettled : Settled s' := by
    have hrun := run_settled (F := K) env (before ++ after)
    rwa [Machine.run_append] at hrun
  exact ((settled_kept env).update hsettled).idle (update_ends hsettled hends hlate)

/-- Ten seconds at 60 RPM, and an update every second. -/
theorem run_window_over :
    let bus := calmBus 1000000
    let s : MotorTerminal ℚ :=
      (terminalMachine bus).run (boot bus) (session "mode hw\rrun 60 60 10\r" 1)
    (∀ i, s.target i = 60) ∧ ∀ i, (update bus ((terminalMachine bus).run s
      (List.replicate 10 .update))).target i = 0 := by
  have hover := run_window (K := ℚ) (calmBus 1000000) (session "mode hw\rrun 60 60 10\r" 1)
    (List.replicate 10 .update) (by decide +kernel) (by decide +kernel)
  exact ⟨by decide +kernel, hover⟩

end Exact

end MotorTerminal
