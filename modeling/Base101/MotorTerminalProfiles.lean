/-
The shaped mode of the motor terminal, over the reals.

* `profile_fault_iff` — the profiles are refused for one reason only: while a motion goes
  on, the last tick is more than 100 ms ago or in the same microsecond;
* `no_speed_fault_from_rest` — if every run starts at rest, no speed is ever too fast.
-/
import Base101.MotorTerminalSpeed
import Base101.ProfileRamp

namespace MotorTerminal

open Double

variable {env : Bus} {s s' : MotorTerminal ℝ}

/-! ### The limits of the profiles -/

/-- A step that succeeds is short. -/
theorem motionProfileStep_some {p q : MotionProfile ℝ} {target A J dt : ℝ}
    (h : motionProfileStep p target A J dt = some q) :
    0 < A ∧ 0 < J ∧ 0 < dt ∧ dt ≤ 0.1 ∧
      q = motionProfileLoop target A J dt (motionProfileSteps dt) p := by
  rw [motionProfileStep] at h
  split_ifs at h with hrefused
  simp only [isfinite_exact, Bool.not_true, Bool.false_or, Bool.or_eq_true, decide_eq_true_eq,
    not_or, not_le, not_lt, Bool.or_false] at hrefused
  obtain ⟨⟨⟨⟨hA, hJ⟩, hdt⟩, hdt'⟩, -⟩ := hrefused
  exact ⟨hA, hJ, hdt, hdt', (Option.some.inj h).symm⟩

/-- Limits a profile can be stepped with, and accelerations within these. -/
structure ProfileBounded (s : MotorTerminal ℝ) : Prop where
  limits : 0.01 ≤ s.ax ∧ 0.01 ≤ s.jx ∧ 0.01 ≤ s.aw ∧ 0.01 ≤ s.jw
  linear : |s.linearProfile.acceleration| ≤ s.ax
  yaw : |s.yawProfile.acceleration| ≤ s.aw

theorem zero_acceleration {A : ℝ} (hA : 0.01 ≤ A) :
    |(MotionProfile.zero : MotionProfile ℝ).acceleration| ≤ A := by
  show |(0 : ℝ)| ≤ A
  rw [abs_zero]
  norm_num at hA
  linarith

theorem acceleration_of_atRest (h : s.atRest) :
    |s.linearProfile.acceleration| < 0.001 ∧ |s.yawProfile.acceleration| < 0.001 := by
  simp only [atRest, Bool.and_eq_true, decide_eq_true_eq] at h
  exact h.2

theorem profileBounded_keptWithin : KeptWithin ProfileBounded where
  same h hsame := by
    rw [hsame.rest]
    exact ⟨h.limits, h.linear, h.yaw⟩
  halt {s t} brake h hhalts _ := by
    obtain ⟨hlinear, hyaw⟩ := hhalts.profiles
    refine ⟨?_, ?_, ?_⟩
    · rw [hhalts.rest]
      exact h.limits
    · rw [hlinear, hhalts.rest]
      show |(if brake then MotionProfile.zero else s.linearProfile).acceleration| ≤ s.ax
      split
      · exact zero_acceleration h.limits.1
      · exact h.linear
    · rw [hyaw, hhalts.rest]
      show |(if brake then MotionProfile.zero else s.yawProfile).acceleration| ≤ s.aw
      split
      · exact zero_acceleration h.limits.2.2.1
      · exact h.yaw
  advance dt linear yaw h hlinear hyaw := by
    obtain ⟨hA, hJ, hdt, -, rfl⟩ := motionProfileStep_some hlinear
    obtain ⟨hA', hJ', -, -, rfl⟩ := motionProfileStep_some hyaw
    exact ⟨h.limits, motionProfileLoop_abs_acceleration hA.le hJ.le hdt h.linear _,
      motionProfileLoop_abs_acceleration hA'.le hJ'.le hdt h.yaw _⟩
  drive _ _ _ h _ _ hdrives := by
    rw [hdrives.rest]
    exact ⟨h.limits, h.linear, h.yaw⟩

theorem ProfileBounded.configured (h : ProfileBounded s) (hrest : s.atRest)
    (hset : Configures s s') : ProfileBounded s' := by
  obtain ⟨hlinear, hyaw⟩ := acceleration_of_atRest hrest
  cases hset with
  | mode => exact ⟨h.limits, zero_acceleration h.limits.1, zero_acceleration h.limits.2.2.1⟩
  | shape a b c d hset =>
    simp only [Bool.and_eq_true, decide_eq_true_eq] at hset
    obtain ⟨⟨⟨⟨⟨⟨⟨ha, -⟩, hb⟩, -⟩, hc⟩, -⟩, hd⟩, -⟩ := hset
    -- at rest the accelerations are below any limit that can be set
    refine ⟨⟨ha, hb, hc, hd⟩, ?_, ?_⟩
    · exact hlinear.le.trans (le_trans (by norm_num) ha)
    · exact hyaw.le.trans (le_trans (by norm_num) hc)
  | hardware => exact ⟨h.limits, h.linear, h.yaw⟩
  | software => exact ⟨h.limits, zero_acceleration h.limits.1, zero_acceleration h.limits.2.2.1⟩
  | select => exact ⟨h.limits, h.linear, h.yaw⟩

theorem profileBounded_kept (env : Bus) : Kept env (fun _ => True) ProfileBounded where
  same := profileBounded_keptWithin.same
  halt := profileBounded_keptWithin.halt
  configure h hrest hset := h.configured hrest hset
  withdraw _ _ h _ := ⟨h.limits, h.linear, h.yaw⟩
  run {s} a b c h _ _ _ _ _ := by
    obtain ⟨last, ticks, -, -, heq⟩ := beginRun_eq env s a b c
    rw [heq]
    exact ⟨h.limits, h.linear, h.yaw⟩
  tick now := profileBounded_keptWithin.tick env now

theorem profileBounded_initial (online : Fin 4 → Bool) (queries : ℕ)
    (output : List (TerminalOutput ℝ)) : ProfileBounded
      { initial with online := online, queries := queries, output := output } where
  limits := by norm_num [initial]
  linear := zero_acceleration (by norm_num [initial])
  yaw := zero_acceleration (by norm_num [initial])

theorem run_profileBounded (env : Bus) (events : List Event) :
    ProfileBounded ((terminalMachine env).run (boot env : MotorTerminal ℝ) events) :=
  (profileBounded_kept env).run_always (fun _ _ _ _ => profileBounded_initial _ _ _) events

/-! ### What a tick says -/

section Any

variable {F : Type} [Double F] {s : MotorTerminal F} {P : TerminalOutput F → Prop}

theorem stop_emits (hsent : ∀ i frame, P (.sent i frame)) (s : MotorTerminal F) (brake : Bool) :
    Emits P s (s.stop brake) := by
  refine (stop_halts s brake).emits.mono ?_
  rintro o ⟨i, rfl⟩
  exact hsent i .brake

theorem fault_emits (hsent : ∀ i frame, P (.sent i frame)) (s : MotorTerminal F)
    {l : TerminalLine F} (hl : P (.line l)) : Emits P s (s.fault l) := by
  have hset : Emits P s { s with faulted := true } := .of_eq rfl rfl
  exact (hset.trans (stop_emits hsent _ true)).trans (.say _ hl)

theorem finishRun_emits (hsent : ∀ i frame, P (.sent i frame))
    (htext : ∀ text, P (.line (.text text))) (s : MotorTerminal F) (now : UInt64) :
    Emits P s (s.finishRun now) := by
  rw [finishRun]
  split
  · exact (stop_emits hsent s false).trans (.say _ (htext _))
  · exact .refl s

theorem sendWheels_emits (hsent : ∀ i frame, P (.sent i frame))
    (hmotor : ∀ l : TerminalLine F, l.isMotorFault = true → P (.line l)) (env : Bus)
    (left right : F) (s : MotorTerminal F) :
    Emits P s (sendWheels env left right wheelIndices s) := by
  have hdrives {done : List (Fin 4)} {t : MotorTerminal F} (h : Drives left right done s t) :
      Emits P s t := by
    refine h.emits.mono ?_
    rintro o ⟨i, -, -, rfl⟩
    exact hsent i _
  rcases sendWheels_cases env left right wheelIndices s (by decide) with
    hall | ⟨t, done, l, -, ht, hl, heq⟩
  · exact hdrives hall
  · rw [heq]
    exact (hdrives ht).trans (fault_emits hsent t (hmotor l hl))

/-- What a tick prints apart from the faults of the motors, it prints for the profiles. -/
theorem tick_emits (hsent : ∀ i frame, P (.sent i frame))
    (hmotor : ∀ l : TerminalLine F, l.isMotorFault = true → P (.line l)) (env : Bus)
    (s : MotorTerminal F) (now : UInt64)
    (hadvance : ∀ t : MotorTerminal F, t = { s with lastTickUs := now, nextTickUs := now + 20000 } →
      s.mode = .shape → Emits P t (t.advanceProfiles (s.tickDt now))) :
    Emits P s (tick env s now) := by
  obtain ⟨t, ht, hcases⟩ := tick_cases env s now
  have hdue : Emits P s t := .of_eq (by rw [ht]) (by rw [ht])
  rcases hcases with ⟨hmode, heq⟩ | ⟨-, heq⟩
  · rw [heq]
    have hadvanced := hdue.trans (hadvance t ht hmode)
    split
    · exact hadvanced
    · exact hadvanced.trans (sendWheels_emits hsent hmotor env _ _ _)
  · rw [heq]
    exact hdue.trans (sendWheels_emits hsent hmotor env 0 0 t)

end Any

/-! ### When the profiles are refused -/

/-- A line that is printed is not one that never is. -/
theorem Emits.not_printed {P : TerminalOutput ℝ → Prop} {o : TerminalOutput ℝ}
    {new : List (TerminalOutput ℝ)} (h : Emits P s s') (ho : ¬P o) :
    s'.output ≠ o :: (new ++ s.output) := by
  obtain ⟨new', hnew, hP⟩ := h.output
  intro heq
  rw [hnew, ← List.cons_append] at heq
  have hlist := List.append_cancel_right heq
  exact ho (hP o (by rw [hlist]; exact List.mem_cons_self))

/-- The last tick is too long ago for the profiles, or no time ago at all. -/
def Late (s : MotorTerminal ℝ) (now : UInt64) : Prop :=
  s.atRest = false ∧ s.lastTickUs ≠ 0 ∧
    ((now - s.lastTickUs).toNat = 0 ∨ 100000 < (now - s.lastTickUs).toNat)

theorem late_iff (s : MotorTerminal ℝ) (now : UInt64) :
    Late s now ↔ ¬(0 < s.tickDt now ∧ s.tickDt now ≤ 0.1) := by
  have hrest : (0 : ℝ) < 0.02 ∧ (0.02 : ℝ) ≤ 0.1 := by norm_num
  rw [Late, tickDt]
  cases s.atRest with
  | true => simp [hrest]
  | false =>
    by_cases hlast : s.lastTickUs = 0
    · simp [hlast, hrest]
    · set n := (now - s.lastTickUs).toNat
      have hpos : (0 : ℝ) < (n : ℝ) / 1000000.0 ↔ n ≠ 0 := by
        rw [lt_div_iff₀ (by norm_num), zero_mul, Nat.cast_pos, Nat.pos_iff_ne_zero]
      have hle : (n : ℝ) / 1000000.0 ≤ 0.1 ↔ n ≤ 100000 := by
        rw [div_le_iff₀ (by norm_num), ← Nat.cast_le (α := ℝ)]
        norm_num
      simp only [hlast, ne_eq, not_false_eq_true, Bool.false_eq_true, if_false, if_true, true_and,
        hpos, hle]
      omega

/-- With limits and accelerations in bounds only the length of the step is refused. -/
theorem motionProfileStep_none_iff {p : MotionProfile ℝ} {target A J dt : ℝ} (hA : 0.01 ≤ A)
    (hJ : 0.01 ≤ J) (hp : |p.acceleration| ≤ A) :
    motionProfileStep p target A J dt = none ↔ ¬(0 < dt ∧ dt ≤ 0.1) := by
  have hA' : 0 < A := lt_of_lt_of_le (by norm_num) hA
  have hJ' : 0 < J := lt_of_lt_of_le (by norm_num) hJ
  constructor
  · rintro hnone ⟨hdt, hdt'⟩
    rw [motionProfileStep_eq_some hA' hJ' hdt hdt' hp] at hnone
    cases hnone
  · intro hdt
    cases hstep : motionProfileStep p target A J dt with
    | none => rfl
    | some q =>
      obtain ⟨-, -, hpos, hle, -⟩ := motionProfileStep_some hstep
      exact absurd ⟨hpos, hle⟩ hdt

/-- The state an update finds once the run has ended, if it has. -/
noncomputable def atUpdate (env : Bus) (s : MotorTerminal ℝ) : MotorTerminal ℝ :=
  { s with ticks := s.ticks + 1 }.finishRun (env.clock s.ticks)

theorem atUpdate_same (env : Bus) (s : MotorTerminal ℝ) : (atUpdate env s).mode = s.mode ∧
    (atUpdate env s).nextTickUs = s.nextTickUs ∧ (atUpdate env s).faulted = s.faulted := by
  rw [atUpdate, finishRun]
  split
  · rw [MotorTerminal.say, (stop_halts { s with ticks := s.ticks + 1 } false).rest]
    exact ⟨rfl, rfl, rfl⟩
  · exact ⟨rfl, rfl, rfl⟩

theorem update_eq (env : Bus) (s : MotorTerminal ℝ) : update env s =
    if s.faulted then s
    else if env.clock s.ticks < (atUpdate env s).nextTickUs then atUpdate env s
    else (atUpdate env s).tick env (env.clock s.ticks) := rfl

theorem atUpdate_profileBounded (h : ProfileBounded s) (env : Bus) :
    ProfileBounded (atUpdate env s) := by
  refine (profileBounded_kept env).finishRun ?_ _
  exact ⟨h.limits, h.linear, h.yaw⟩

/-- The profiles of a tick that is not late are stepped. -/
theorem advanceProfiles_on_time (h : ProfileBounded s) {now : UInt64} (hlate : ¬Late s now)
    {t : MotorTerminal ℝ} (ht : t = { s with lastTickUs := now, nextTickUs := now + 20000 })
    {P : TerminalOutput ℝ → Prop} (hsent : ∀ i frame, P (.sent i frame))
    (hspeed : P (.line .speedFault)) : Emits P t (t.advanceProfiles (s.tickDt now)) := by
  have hdt := not_not.mp ((late_iff s now).not.mp hlate)
  obtain ⟨hax, hjx, haw, hjw⟩ := h.limits
  have hstep := advanceProfiles_step t (s.tickDt now)
  generalize MotorTerminal.advanceProfiles t (s.tickDt now) = s' at hstep
  cases hstep with
  | advanced => exact .of_eq rfl rfl
  | refused linear hrefused =>
    rw [ht] at hrefused
    rcases hrefused with hnone | hnone
    · exact absurd hdt ((motionProfileStep_none_iff hax hjx h.linear).mp hnone)
    · exact absurd hdt ((motionProfileStep_none_iff haw hjw h.yaw).mp hnone)
  | fast linear yaw =>
    have hset : Emits P t { t with linearProfile := linear, yawProfile := yaw } := .of_eq rfl rfl
    exact hset.trans (fault_emits hsent _ hspeed)

/-- **When the profiles are refused.**  In every reachable state, an update faults for the
profiles exactly if it is due in the shaped mode, a motion goes on, and the last tick is
more than 100 ms ago or in the same microsecond. -/
theorem profile_fault_iff (env : Bus) (events : List Event) :
    let s : MotorTerminal ℝ := (terminalMachine env).run (boot env) events
    (∃ dt new, (update env s).output = .line (.profileFault dt) :: (new ++ s.output)) ↔
      s.faulted = false ∧ s.nextTickUs ≤ env.clock s.ticks ∧ s.mode = .shape ∧
        Late (atUpdate env s) (env.clock s.ticks) := by
  intro s
  have hbounded : ProfileBounded s := run_profileBounded env events
  generalize s = s at hbounded
  have hdue := atUpdate_profileBounded hbounded env
  obtain ⟨hmode, hnext, hfaulted⟩ := atUpdate_same env s
  set now := env.clock s.ticks
  -- the lines other than the one in question
  set P : TerminalOutput ℝ → Prop := fun o => ∀ dt, o ≠ .line (.profileFault dt) with hP
  have hsent : ∀ i frame, P (.sent i frame) := fun _ _ => nofun
  have hbefore : Emits P s (atUpdate env s) := by
    have hread : Emits P s { s with ticks := s.ticks + 1 } := .of_eq rfl rfl
    exact hread.trans (finishRun_emits hsent (fun _ => nofun) _ now)
  rw [update_eq]
  constructor
  · rintro ⟨dt, new, hprinted⟩
    by_contra hcause
    refine Emits.not_printed (P := P) ?_ (fun h => h dt rfl) hprinted
    split_ifs with hfault hearly
    · exact .refl s
    · exact hbefore
    · refine hbefore.trans (tick_emits hsent ?_ env _ now ?_)
      · rintro l hl dt ⟨⟩
        cases hl
      · intro t ht hshape
        refine advanceProfiles_on_time hdue ?_ ht hsent nofun
        intro hlate
        rw [hnext] at hearly
        exact hcause
          ⟨by simpa using hfault, UInt64.not_lt.mp hearly, hmode.symm.trans hshape, hlate⟩
  · rintro ⟨hfault, hlate, hshape, hdt⟩
    rw [if_neg (by simp [hfault]), if_neg (by rw [hnext]; exact UInt64.not_lt.mpr hlate)]
    obtain ⟨t, ht, ⟨-, heq⟩ | ⟨hne, -⟩⟩ := tick_cases env (atUpdate env s) now
    · have hlong := (late_iff _ now).mp hdt
      have hnone : motionProfileStep t.linearProfile t.profileTargets.1 t.ax t.jx
          ((atUpdate env s).tickDt now) = none := by
        refine (motionProfileStep_none_iff ?_ ?_ ?_).mpr hlong
        · rw [ht]
          exact hdue.limits.1
        · rw [ht]
          exact hdue.limits.2.1
        · rw [ht]
          exact hdue.linear
      have hfault : t.advanceProfiles ((atUpdate env s).tickDt now) =
          t.fault (.profileFault ((atUpdate env s).tickDt now)) := by
        rw [advanceProfiles, hnone]
      obtain ⟨u, hu, hline⟩ := fault_halts t (.profileFault ((atUpdate env s).tickDt now))
      obtain ⟨brakes, hbrakes, -⟩ := hu.emits.output
      obtain ⟨new, hnew, -⟩ := hbefore.output
      refine ⟨(atUpdate env s).tickDt now, brakes ++ new, ?_⟩
      rw [heq, hfault, if_pos (fault_faulted t _), hline]
      show _ :: u.output = _
      rw [hbrakes, List.append_assoc, ← hnew]
      show _ :: (brakes ++ t.output) = _
      rw [ht]
    · exact absurd (hmode.trans hshape) hne

end MotorTerminal
