/-
Runs of the motor terminal that start at rest, over the reals.

The two profiles are limited each by itself, so a run that interrupts another one can
ask for more than its own targets.  A run that starts at rest cannot: the velocities stay
within the hull of its own targets.

* `SpeedsInHull` — the targets and the speeds of the profiles lie in a hull of 200 RPM;
* `no_speed_fault_from_rest` — if every run starts at rest, they always do, and no speed is
  ever too fast.
-/
import Base101.GlideCurvature
import Base101.MotorTerminalProfiles

namespace MotorTerminal

open Double

variable {env : Bus} {s s' : MotorTerminal ℝ} {J bound : ℝ} {p q : MotionProfile ℝ}

/-! ### Confined profiles -/

/-- The velocity can be kept within `bound` on both sides. -/
def Confined (J bound : ℝ) (p : MotionProfile ℝ) : Prop :=
  WithinReserve J bound p ∧ WithinReserve J bound p.mirror

theorem Confined.abs_velocity_le (h : Confined J bound p) (hJ : 0 < J) : |p.velocity| ≤ bound := by
  have hup := h.1.velocity_le hJ
  have hdown := h.2.velocity_le hJ
  simp only [MotionProfile.mirror] at hdown
  exact abs_le.mpr ⟨by linarith, hup⟩

theorem confined_zero (hJ : 0 < J) (hbound : 0 ≤ bound) : Confined J bound MotionProfile.zero := by
  have hzero : brakingReserve (reserveCorner J) (0 : ℝ) ≤ 2 * J * (bound - 0) := by
    rw [brakingReserve_of_nonpos (le_refl 0)]
    have hroom : 0 ≤ bound - 0 := by linarith
    positivity
  refine ⟨hzero, ?_⟩
  rw [WithinReserve]
  simpa [MotionProfile.mirror, MotionProfile.zero] using hzero

/-- A profile at rest needs next to no room. -/
theorem confined_of_rest (hJ : 0.01 ≤ J) (hacc : |p.acceleration| < 0.001)
    (hbound : |p.velocity| + 0.0002 ≤ bound) : Confined J bound p := by
  norm_num at hJ hacc hbound
  obtain ⟨hacc₁, hacc₂⟩ := abs_lt.mp hacc
  obtain ⟨hvel₁, hvel₂⟩ := abs_le.mp (le_refl |p.velocity|)
  have hside (v a : ℝ) (ha : a < 1 / 1000) (hv : v + 1 / 5000 ≤ bound) :
      brakingReserve (reserveCorner J) a ≤ 2 * J * (bound - v) := by
    rcases le_or_gt a 0 with hneg | hpos
    · rw [brakingReserve_of_nonpos hneg]
      have hroom : 0 ≤ bound - v := by linarith
      positivity
    · have hcorner : a ≤ reserveCorner J := by
        rw [reserveCorner]
        linarith
      rw [brakingReserve_of_le hpos hcorner, reserveCorner]
      nlinarith
  refine ⟨hside _ _ hacc₂ (by linarith), ?_⟩
  exact hside (-p.velocity) (-p.acceleration) (by linarith) (by linarith)

/-- A step toward a target within the bound. -/
theorem Confined.step {target A dt : ℝ} (h : Confined J bound p) (htarget : |target| ≤ bound)
    (hstep : motionProfileStep p target A J dt = some q) : Confined J bound q := by
  obtain ⟨hA, hJ, hdt, -, rfl⟩ := motionProfileStep_some hstep
  obtain ⟨hh, hh'⟩ := motionProfileSteps_bounds hdt
  obtain ⟨htarget₁, htarget₂⟩ := abs_le.mp htarget
  -- on the substeps, and on their mirror images
  have hloop (i : ℕ) : Confined J bound (motionProfileLoop target A J dt i p) := by
    induction i with
    | zero => exact h
    | succ i ih =>
      rw [motionProfileLoop_succ]
      refine ⟨motionProfileSubstep_reserve hA hJ hh hh' htarget₂ ih.1, ?_⟩
      rw [← motionProfileSubstep_mirror hA.le (mul_pos hJ hh).le]
      exact motionProfileSubstep_reserve hA hJ hh hh' (by linarith) ih.2
  exact hloop _

/-! ### Sides and body -/

/-- Metres per second for one RPM. -/
noncomputable def speedOfRpm : ℝ := twoPi / 60 * wheelRadiusM

/-- The shaped speed of the wheel's side, in RPM. -/
noncomputable def side (s : MotorTerminal ℝ) (i : Fin 4) : ℝ :=
  if (wheelTable i).left then s.shapedLeft else s.shapedRight

theorem body_of_sides (s : MotorTerminal ℝ) :
    s.linearProfile.velocity = (s.shapedLeft + s.shapedRight) / 2 * speedOfRpm ∧
      s.yawProfile.velocity * wheelSeparationM = (s.shapedRight - s.shapedLeft) * speedOfRpm := by
  have hpi : (twoPi : ℝ) ≠ 0 := by norm_num [twoPi]
  have hradius : (wheelRadiusM : ℝ) ≠ 0 := by norm_num [wheelRadiusM]
  have half : (0.5 : ℝ) = 1 / 2 := by norm_num
  rw [shapedLeft, shapedRight, speedOfRpm, half]
  constructor
  · field_simp
    ring
  · field_simp
    ring

theorem sides_of_body (s : MotorTerminal ℝ) :
    s.shapedLeft * speedOfRpm =
        s.linearProfile.velocity - s.yawProfile.velocity * wheelSeparationM / 2 ∧
      s.shapedRight * speedOfRpm =
        s.linearProfile.velocity + s.yawProfile.velocity * wheelSeparationM / 2 := by
  obtain ⟨hlinear, hyaw⟩ := body_of_sides s
  rw [hlinear, hyaw]
  constructor <;> ring

/-! ### Runs from rest -/

/-- What the residual motion at rest adds to the hull of the targets. -/
noncomputable def restMargin : ℝ := 0.001

/-- The profiles and their targets are confined to a hull of at most 200 RPM. -/
def InHull (s : MotorTerminal ℝ) : Prop :=
  ∃ linear yaw, linear + yaw * wheelSeparationM / 2 ≤ 200 * speedOfRpm ∧
    |s.profileTargets.1| ≤ linear ∧ |s.profileTargets.2| ≤ yaw ∧
    Confined s.jx (linear + restMargin) s.linearProfile ∧
    Confined s.jw (yaw + restMargin) s.yawProfile

/-- A hull of at most 200 RPM holds the targets, and the speeds of both profiles. -/
def SpeedsInHull (s : MotorTerminal ℝ) : Prop :=
  ∃ linear yaw, linear + yaw * wheelSeparationM / 2 ≤ 200 * speedOfRpm ∧
    |s.profileTargets.1| ≤ linear ∧ |s.profileTargets.2| ≤ yaw ∧
    |s.linearProfile.velocity| ≤ linear + restMargin ∧
    |s.yawProfile.velocity| ≤ yaw + restMargin

/-- In the shaped mode the wheels are sent what the profiles say, and these stay in the
hull. -/
structure FromRest (s : MotorTerminal ℝ) : Prop where
  link : s.mode = .shape → ∀ i, s.online i → |s.side i| ≤ |s.commanded i| + 1e-6
  /-- A wheel that is not there keeps the profiles at rest. -/
  offline : s.mode = .shape → ¬(∀ i, s.online i) →
    s.linearProfile = .zero ∧ s.yawProfile = .zero ∧ ∀ i, s.target i = 0
  hull : s.mode = .shape → InHull s

theorem speedOfRpm_pos : 0 < speedOfRpm := by norm_num [speedOfRpm, twoPi, wheelRadiusM]

theorem profileTargets_zero (h : ∀ i, s.target i = 0) : s.profileTargets = (0, 0) := by
  simp [profileTargets, h]

/-- Reset profiles without a target. -/
theorem fromRest_of_zero (hlinear : s.linearProfile = .zero) (hyaw : s.yawProfile = .zero)
    (htarget : ∀ i, s.target i = 0) (hbounded : ProfileBounded s) : FromRest s where
  link _ i _ := by
    have hside : s.side i = 0 := by
      simp [side, shapedLeft, shapedRight, hlinear, hyaw, MotionProfile.zero]
    rw [hside, abs_zero]
    have hpos : (0 : ℝ) ≤ 1e-6 := by norm_num
    linarith [abs_nonneg (s.commanded i)]
  offline _ _ := ⟨hlinear, hyaw, htarget⟩
  hull _ := by
    obtain ⟨-, hjx, -, hjw⟩ := hbounded.limits
    have hmargin : (0 : ℝ) ≤ 0 + restMargin := by norm_num [restMargin]
    refine ⟨0, 0, ?_, ?_, ?_, ?_, ?_⟩
    · have hpos := speedOfRpm_pos
      linarith
    · rw [profileTargets_zero htarget, abs_zero]
    · rw [profileTargets_zero htarget, abs_zero]
    · rw [hlinear]
      exact confined_zero (lt_of_lt_of_le (by norm_num) hjx) hmargin
    · rw [hyaw]
      exact confined_zero (lt_of_lt_of_le (by norm_num) hjw) hmargin

/-- At rest in the shaped mode, the profiles are confined next to nothing. -/
theorem FromRest.confined_at_rest (h : FromRest s) (hmode : s.mode = .shape) (hrest : s.atRest)
    {J J' linear yaw : ℝ} (hJ : 0.01 ≤ J) (hJ' : 0.01 ≤ J') (hlinear : 0 ≤ linear)
    (hyaw : 0 ≤ yaw) : Confined J (linear + restMargin) s.linearProfile ∧
      Confined J' (yaw + restMargin) s.yawProfile := by
  obtain ⟨hacc, hacc'⟩ := acceleration_of_atRest hrest
  have hspeeds : |s.linearProfile.velocity| ≤ 0.0005 ∧ |s.yawProfile.velocity| ≤ 0.0005 := by
    by_cases hall : ∀ i, s.online i
    · -- all wheels were sent the speeds of the profiles
      have hside (i : Fin 4) : |s.side i| ≤ 0.010001 := by
        have hcommanded := abs_commanded_of_atRest hrest i
        have hlink := h.link hmode i (hall i)
        norm_num at hcommanded hlink ⊢
        linarith
      have hleft : |s.shapedLeft| ≤ 0.010001 := hside 0
      have hright : |s.shapedRight| ≤ 0.010001 := hside 1
      obtain ⟨hlin, hyaw⟩ := body_of_sides s
      obtain ⟨hl₁, hl₂⟩ := abs_le.mp hleft
      obtain ⟨hr₁, hr₂⟩ := abs_le.mp hright
      have hspeed : speedOfRpm = 6.283185307179586 / 60 * 0.0363 := rfl
      have hsep : (wheelSeparationM : ℝ) = 0.2899 := rfl
      rw [hspeed] at hlin hyaw
      rw [hsep] at hyaw
      norm_num at hlin hyaw hl₁ hl₂ hr₁ hr₂ ⊢
      constructor
      · rw [abs_le]
        constructor <;> linarith
      · rw [abs_le]
        constructor <;> linarith
    · obtain ⟨hlin, hyaw, -⟩ := h.offline hmode hall
      rw [hlin, hyaw]
      norm_num [MotionProfile.zero]
  obtain ⟨hlin, hyaw'⟩ := hspeeds
  refine ⟨confined_of_rest hJ hacc ?_, confined_of_rest hJ' hacc' ?_⟩
  · norm_num [restMargin] at hlin ⊢
    linarith
  · norm_num [restMargin] at hyaw' ⊢
    linarith

/-- Targets withdrawn, nothing else. -/
theorem FromRest.withdrawn (h : FromRest s) :
    FromRest { s with target := fun _ => 0 } where
  link := h.link
  offline hmode hall := by
    obtain ⟨hlinear, hyaw, -⟩ := h.offline hmode hall
    exact ⟨hlinear, hyaw, fun _ => rfl⟩
  hull hmode := by
    obtain ⟨linear, yaw, hsum, hlinear, hyaw, hconfined⟩ := h.hull hmode
    refine ⟨linear, yaw, hsum, ?_, ?_, hconfined⟩
    · rw [profileTargets_zero fun _ => rfl, abs_zero]
      exact (abs_nonneg _).trans hlinear
    · rw [profileTargets_zero fun _ => rfl, abs_zero]
      exact (abs_nonneg _).trans hyaw

theorem FromRest.halted (h : FromRest s) {brake : Bool} (hs' : Halting brake s s')
    (hbounded : ProfileBounded s') : FromRest s' := by
  have htarget : s'.target = fun _ => 0 := funext hs'.target
  obtain ⟨hlinear, hyaw⟩ := hs'.profiles
  cases brake with
  | true => exact fromRest_of_zero hlinear hyaw hs'.target hbounded
  | false =>
    have hcommanded : s'.commanded = s.commanded := by
      funext i
      simpa using hs'.commanded i
    have hrest := hs'.rest
    rw [htarget, hcommanded, hlinear, hyaw] at hrest
    rw [hrest]
    have hwithdrawn := h.withdrawn
    exact ⟨hwithdrawn.link, hwithdrawn.offline, hwithdrawn.hull⟩

theorem FromRest.same (h : FromRest s) (hsame : Same s s') : FromRest s' := by
  rw [hsame.rest]
  exact ⟨h.link, h.offline, h.hull⟩

/-- The invariant, and what it rests on. -/
structure Confining (s : MotorTerminal ℝ) : Prop where
  profiles : ProfileBounded s
  settled : Settled s
  speeds : SpeedBounded s
  rest : FromRest s

theorem Confining.same (h : Confining s) (hsame : Same s s') : Confining s' where
  profiles := profileBounded_keptWithin.same h.profiles hsame
  settled := settled_keptWithin.same h.settled hsame
  speeds := speedBounded_keptWithin.same h.speeds hsame
  rest := h.rest.same hsame

theorem FromRest.configured (h : Confining s) (hrest : s.atRest) (hset : Configures s s') :
    FromRest s' := by
  have hbounded := h.profiles.configured hrest hset
  have htarget := h.settled.idle (moving_of_atRest hrest)
  cases hset with
  | mode => exact fromRest_of_zero rfl rfl htarget hbounded
  | shape a b c d hset =>
    refine ⟨h.rest.link, h.rest.offline, ?_⟩
    intro hmode
    obtain ⟨-, hjx, -, hjw⟩ := hbounded.limits
    obtain ⟨hlinear, hyaw⟩ := h.rest.confined_at_rest hmode hrest hjx hjw (le_refl 0) (le_refl 0)
    refine ⟨0, 0, ?_, ?_, ?_, hlinear, hyaw⟩
    · have hpos := speedOfRpm_pos
      linarith
    · rw [profileTargets_zero (by exact htarget), abs_zero]
    · rw [profileTargets_zero (by exact htarget), abs_zero]
  | hardware => exact ⟨h.rest.link, h.rest.offline, h.rest.hull⟩
  | software => exact fromRest_of_zero rfl rfl htarget hbounded
  | select k hk =>
    -- the shaped mode is kept or left, never entered
    have hmode (hshape : (s.selectWheel k).mode = .shape) : s.mode = .shape := by
      simp only [selectWheel] at hshape
      split at hshape
      · cases hshape
      · exact hshape
    exact ⟨fun hshape => h.rest.link (hmode hshape), fun hshape => h.rest.offline (hmode hshape),
      fun hshape => h.rest.hull (hmode hshape)⟩

/-- The targets of a run in the shaped mode: those of the two sides. -/
theorem runTargets_shape (hsettled : Settled s) (hmode : s.mode = .shape)
    (hall : wheelIndices.all s.online) (a b : ℝ) :
    s.runTargets a b 0 = a ∧ s.runTargets a b 1 = b := by
  have hdriven (i : Fin 4) : s.driven i = true := by
    have hi := List.all_eq_true.mp hall i (mem_wheelIndices i)
    simp [driven, hsettled.shape hmode, hi]
  simp [runTargets, hdriven, wheelTable]

theorem FromRest.ran (h : Confining s) (hrest : s.atRest) {a b : ℝ} (c : ℝ) (ha : |a| ≤ 200)
    (hb : |b| ≤ 200) (hall : s.mode = .shape → wheelIndices.all s.online) :
    FromRest (beginRun env s a b c) := by
  obtain ⟨last, ticks, -, -, heq⟩ := beginRun_eq env s a b c
  rw [heq]
  refine ⟨h.rest.link, ?_, ?_⟩
  · intro hmode hnot
    refine absurd ?_ hnot
    intro i
    exact List.all_eq_true.mp (hall hmode) i (mem_wheelIndices i)
  · intro hmode
    change s.mode = .shape at hmode
    obtain ⟨hleft, hright⟩ := runTargets_shape h.settled hmode (hall hmode) a b
    obtain ⟨-, hjx, -, hjw⟩ := h.profiles.limits
    set l := a * speedOfRpm with hl
    set r := b * speedOfRpm with hr
    have hpos := speedOfRpm_pos
    have hl' : |l| ≤ 200 * speedOfRpm := by
      rw [hl, abs_mul, abs_of_pos hpos]
      exact mul_le_mul_of_nonneg_right ha hpos.le
    have hr' : |r| ≤ 200 * speedOfRpm := by
      rw [hr, abs_mul, abs_of_pos hpos]
      exact mul_le_mul_of_nonneg_right hb hpos.le
    have hsep : (0 : ℝ) < wheelSeparationM := by norm_num [wheelSeparationM]
    have htargets : ∀ t : MotorTerminal ℝ, t.target = s.runTargets a b →
        t.profileTargets = ((l + r) * 0.5, (r - l) / wheelSeparationM) := by
      intro t ht
      have hunit (x : ℝ) : x * twoPi / 60 * wheelRadiusM = x * speedOfRpm := by
        rw [speedOfRpm]
        ring
      rw [profileTargets, ht, hleft, hright, hunit, hunit]
    obtain ⟨hlinear, hyaw⟩ := h.rest.confined_at_rest hmode hrest hjx hjw
      (abs_nonneg ((l + r) * 0.5)) (abs_nonneg ((r - l) / wheelSeparationM))
    refine ⟨|(l + r) * 0.5|, |(r - l) / wheelSeparationM|, ?_, ?_, ?_, hlinear, hyaw⟩
    · -- half the sum and half the difference are together the larger side
      rw [abs_div, abs_of_pos hsep, div_mul_cancel₀ _ hsep.ne', abs_mul]
      have half : |(0.5 : ℝ)| = 1 / 2 := by norm_num [abs_of_pos]
      rw [half]
      obtain ⟨hl₁, hl₂⟩ := abs_le.mp hl'
      obtain ⟨hr₁, hr₂⟩ := abs_le.mp hr'
      rcases abs_cases (l + r) with ⟨h₁, -⟩ | ⟨h₁, -⟩
      · rcases abs_cases (r - l) with ⟨h₂, -⟩ | ⟨h₂, -⟩
        · rw [h₁, h₂]; linarith
        · rw [h₁, h₂]; linarith
      · rcases abs_cases (r - l) with ⟨h₂, -⟩ | ⟨h₂, -⟩
        · rw [h₁, h₂]; linarith
        · rw [h₁, h₂]; linarith
    · rw [htargets _ rfl]
    · rw [htargets _ rfl]

/-! ### Ticks -/

/-- A fault leaves the profiles reset and no target. -/
theorem fault_zero (s : MotorTerminal ℝ) (l : TerminalLine ℝ) :
    (s.fault l).linearProfile = .zero ∧ (s.fault l).yawProfile = .zero ∧
      ∀ i, (s.fault l).target i = 0 := by
  obtain ⟨t, ht, heq⟩ := fault_halts s l
  rw [heq]
  exact ⟨ht.profiles.1, ht.profiles.2, ht.target⟩

/-- A step of both profiles stays in the hull. -/
theorem InHull.advance (h : InHull s) {dt : ℝ} {linear yaw : MotionProfile ℝ}
    (hlinear : motionProfileStep s.linearProfile s.profileTargets.1 s.ax s.jx dt = some linear)
    (hyaw : motionProfileStep s.yawProfile s.profileTargets.2 s.aw s.jw dt = some yaw) :
    InHull { s with linearProfile := linear, yawProfile := yaw } := by
  obtain ⟨L, Y, hsum, hL, hY, hlinear₀, hyaw₀⟩ := h
  have hmargin : (0 : ℝ) ≤ restMargin := by norm_num [restMargin]
  exact ⟨L, Y, hsum, hL, hY, hlinear₀.step (by linarith) hlinear,
    hyaw₀.step (by linarith) hyaw⟩

theorem InHull.speeds (h : InHull s) (hbounded : ProfileBounded s) : SpeedsInHull s := by
  obtain ⟨L, Y, hsum, hL, hY, hlinear, hyaw⟩ := h
  obtain ⟨-, hjx, -, hjw⟩ := hbounded.limits
  exact ⟨L, Y, hsum, hL, hY, hlinear.abs_velocity_le (lt_of_lt_of_le (by norm_num) hjx),
    hyaw.abs_velocity_le (lt_of_lt_of_le (by norm_num) hjw)⟩

/-- In the hull the shaped speeds are below 210 RPM. -/
theorem SpeedsInHull.slow (h : SpeedsInHull s) :
    ¬210.0 < fmax (fabs s.shapedLeft) (fabs s.shapedRight) := by
  obtain ⟨L, Y, hsum, -, -, hlin, hang⟩ := h
  obtain ⟨hleft, hright⟩ := sides_of_body s
  obtain ⟨hl₁, hl₂⟩ := abs_le.mp hlin
  obtain ⟨hy₁, hy₂⟩ := abs_le.mp hang
  have hspeed : speedOfRpm = 6.283185307179586 / 60 * 0.0363 := rfl
  have hsep : (wheelSeparationM : ℝ) = 0.2899 := rfl
  rw [hsep] at hsum hleft hright
  rw [hspeed] at hsum hleft hright
  norm_num [restMargin] at hsum hleft hright hl₁ hl₂ hy₁ hy₂
  rw [not_lt]
  norm_num
  constructor
  · rw [abs_le]
    constructor <;> linarith
  · rw [abs_le]
    constructor <;> linarith

/-- What is flushed to zero is small. -/
theorem flush_close (x : ℝ) : |x| ≤ |if fabs x < 1e-6 then 0 else x| + 1e-6 := by
  split
  · next hsmall =>
    rw [abs_zero, zero_add]
    exact le_of_lt hsmall
  · have hpos : (0 : ℝ) ≤ 1e-6 := by norm_num
    linarith

/-- The profiles of a tick that goes through. -/
theorem FromRest.advanced (h : Confining s) {dt : ℝ} {linear yaw : MotionProfile ℝ}
    (hlinear : motionProfileStep s.linearProfile s.profileTargets.1 s.ax s.jx dt = some linear)
    (hyaw : motionProfileStep s.yawProfile s.profileTargets.2 s.aw s.jw dt = some yaw)
    (hmode : s.mode = .shape) {left right : ℝ}
    (hleft : left = { s with linearProfile := linear, yawProfile := yaw }.shapedLeft)
    (hright : right = { s with linearProfile := linear, yawProfile := yaw }.shapedRight)
    (hs' : Drives left right wheelIndices { s with linearProfile := linear, yawProfile := yaw }
      s') :
    FromRest s' := by
  have hcommanded := hs'.commanded
  have honline : s'.online = s.online := hs'.emits.online
  rw [hs'.rest]
  refine ⟨?_, ?_, ?_⟩
  · intro _ i hi
    -- every online wheel is sent the speed of its side, flushed to zero
    have hsent := hcommanded i
    rw [if_pos ⟨hi, mem_wheelIndices i⟩, nextCommanded] at hsent
    simp only [hmode, if_true] at hsent
    show |side { s with linearProfile := linear, yawProfile := yaw } i| ≤ |s'.commanded i| + 1e-6
    rw [hsent, side, ← hleft, ← hright]
    exact flush_close _
  · intro _ hnot
    obtain ⟨hlinear₀, hyaw₀, htarget⟩ := h.rest.offline hmode hnot
    obtain ⟨hA, hJ, hdt, -, hlinear'⟩ := motionProfileStep_some hlinear
    obtain ⟨hA', hJ', -, -, hyaw'⟩ := motionProfileStep_some hyaw
    rw [profileTargets_zero htarget, hlinear₀] at hlinear'
    rw [profileTargets_zero htarget, hyaw₀] at hyaw'
    refine ⟨?_, ?_, htarget⟩
    · exact hlinear'.trans (motionProfileLoop_rest hA.le hJ.le hdt _)
    · exact hyaw'.trans (motionProfileLoop_rest hA'.le hJ'.le hdt _)
  · intro _
    exact (h.rest.hull hmode).advance hlinear hyaw

theorem FromRest.ticked (h : Confining s) (env : Bus) (now : UInt64) (hfault : s.faulted = false) :
    FromRest (tick env s now) := by
  have hbounded := profileBounded_keptWithin.tick env now h.profiles hfault
  obtain ⟨t, ht, hcases⟩ := tick_cases env s now
  have hsame : Same s t := by rw [ht]; exact .of_eq (Nat.le_refl _) rfl rfl
  have hdue : Confining t := h.same hsame
  have hzero {u : MotorTerminal ℝ} (l : TerminalLine ℝ) (hu : tick env s now = u.fault l) :
      FromRest (tick env s now) := by
    obtain ⟨hlinear, hyaw, htarget⟩ := fault_zero u l
    rw [← hu] at hlinear hyaw htarget
    exact fromRest_of_zero hlinear hyaw htarget hbounded
  rcases hcases with ⟨hmode, heq⟩ | ⟨hmode, heq⟩
  · have hstep := advanceProfiles_step t (s.tickDt now)
    generalize t.advanceProfiles (s.tickDt now) = s' at hstep heq
    cases hstep with
    | advanced linear yaw hlinear hyaw =>
      set v : MotorTerminal ℝ := { t with linearProfile := linear, yawProfile := yaw } with hv
      have hgood : v.faulted = false := by
        rw [hv, ht]
        exact hfault
      rw [if_neg (by simp [hgood])] at heq
      rcases sendWheels_cases env v.shapedLeft v.shapedRight wheelIndices v (by decide) with
        hall | ⟨u, done, l, -, -, -, hu⟩
      · rw [← heq] at hall
        exact FromRest.advanced hdue hlinear hyaw (by rw [ht]; exact hmode) rfl rfl hall
      · exact hzero l (heq.trans hu)
    | refused linear =>
      rw [if_pos (fault_faulted _ _)] at heq
      exact hzero _ heq
    | fast linear yaw =>
      rw [if_pos (fault_faulted _ _)] at heq
      exact hzero _ heq
  · rcases sendWheels_cases env 0 0 wheelIndices t (by decide) with
      hall | ⟨u, done, l, -, -, -, hu⟩
    · -- without shaping nothing is said about the profiles
      rw [← heq] at hall
      have hmode' : (tick env s now).mode ≠ .shape := by
        rw [hall.rest, ht]
        exact hmode
      exact ⟨fun hshape => absurd hshape hmode', fun hshape => absurd hshape hmode',
        fun hshape => absurd hshape hmode'⟩
    · exact hzero l (heq.trans hu)

theorem confining_kept (env : Bus) : Kept env (fun s => s.atRest) Confining where
  same h hsame := h.same hsame
  halt brake h hhalts hquiet := by
    have hbounded := profileBounded_keptWithin.halt brake h.profiles hhalts hquiet
    exact ⟨hbounded, h.settled.halted hhalts, h.speeds.halted hhalts hquiet,
      h.rest.halted hhalts hbounded⟩
  configure h hrest hset := ⟨h.profiles.configured hrest hset, h.settled.configured hrest hset,
    h.speeds.configured hrest hset, .configured h hrest hset⟩
  withdraw a b h hnone := by
    have hrest := h.rest.withdrawn
    refine ⟨(profileBounded_kept env).withdraw a b h.profiles hnone,
      (settled_kept env).withdraw a b h.settled hnone,
      (speedBounded_kept env).withdraw a b h.speeds hnone, ?_⟩
    rw [runTargets_of_none hnone]
    exact hrest
  run {s} a b c h hrest hfault hnumbers hall hany := by
    refine ⟨(profileBounded_kept env).run a b c h.profiles trivial hfault hnumbers hall hany,
      (settled_kept env).run a b c h.settled trivial hfault hnumbers hall hany,
      (speedBounded_kept env).run a b c h.speeds trivial hfault hnumbers hall hany, ?_⟩
    simp only [Bool.and_eq_true, decide_eq_true_eq, fabs_exact] at hnumbers
    exact .ran h hrest c hnumbers.1.1.1 hnumbers.1.1.2 hall
  tick now h hfault := ⟨profileBounded_keptWithin.tick env now h.profiles hfault,
    settled_keptWithin.tick env now h.settled hfault,
    speedBounded_keptWithin.tick env now h.speeds hfault, .ticked h env now hfault⟩

theorem confining_initial (online : Fin 4 → Bool) (queries : ℕ)
    (output : List (TerminalOutput ℝ)) (hquiet : ∀ o ∈ output, o.isMotion = false) : Confining
      { initial with online := online, queries := queries, output := output } where
  profiles := profileBounded_initial online queries output
  settled := settled_initial online queries output
  speeds := speedBounded_initial online queries output hquiet
  rest := fromRest_of_zero rfl rfl (fun _ => rfl) (profileBounded_initial online queries output)

/-- **No speed is ever too fast, if every run starts at rest.**  Then the profiles stay in a
hull of at most 200 RPM with their targets, but for the slack of a rest that is not exact; and
no update faults for the shaped speed. -/
theorem no_speed_fault_from_rest (env : Bus) (events : List Event) :
    (terminalMachine env).Always (Starts env fun s : MotorTerminal ℝ => s.atRest) (boot env)
      events →
    let s : MotorTerminal ℝ := (terminalMachine env).run (boot env) events
    (s.mode = .shape → SpeedsInHull s) ∧
      ∀ new, (update env s).output ≠ .line .speedFault :: (new ++ s.output) := by
  intro hstarts s
  have hconfining : Confining s :=
    (confining_kept env).always (fun _ _ _ => confining_initial _ _ _) hstarts
  generalize s = s at hconfining
  refine ⟨fun hmode => (hconfining.rest.hull hmode).speeds hconfining.profiles, fun new => ?_⟩
  set P : TerminalOutput ℝ → Prop := fun o => o ≠ .line .speedFault with hP
  have hsent : ∀ i frame, P (.sent i frame) := fun _ _ => nofun
  have hread : Same s { s with ticks := s.ticks + 1 } := .of_eq (Nat.le_succ _) rfl rfl
  have hdue : Confining (atUpdate env s) :=
    (confining_kept env).finishRun (hconfining.same hread) _
  have hbefore : Emits P s (atUpdate env s) := by
    have hticks : Emits P s { s with ticks := s.ticks + 1 } := .of_eq rfl rfl
    exact hticks.trans (finishRun_emits hsent (fun _ => nofun) _ _)
  refine Emits.not_printed (P := P) ?_ (fun h => h rfl)
  rw [update_eq]
  split_ifs with hfault hearly
  · exact .refl s
  · exact hbefore
  · refine hbefore.trans (tick_emits hsent ?_ env _ _ ?_)
    · rintro l hl ⟨⟩
      cases hl
    · intro t ht hshape
      have htick : Confining t :=
        hdue.same (by rw [ht]; exact .of_eq (Nat.le_refl _) rfl rfl)
      have hmode : t.mode = .shape := by
        rw [ht]
        exact hshape
      have hstep := advanceProfiles_step t ((atUpdate env s).tickDt (env.clock s.ticks))
      generalize t.advanceProfiles _ = s' at hstep
      cases hstep with
      | advanced => exact .of_eq rfl rfl
      | refused linear =>
        have hset : Emits P t { t with linearProfile := linear } := .of_eq rfl rfl
        exact hset.trans (fault_emits hsent _ nofun)
      | fast linear yaw hlinear hyaw hfast =>
        have hbounded := profileBounded_keptWithin.advance _ linear yaw htick.profiles hlinear hyaw
        exact absurd hfast (((htick.rest.hull hmode).advance hlinear hyaw).speeds hbounded).slow

/-! ### A line typed at rest -/

/-- Characters that only fill the line. -/
def typed (ch : Char) : Bool := ch ∉ ['!', '\x03', '\r', '\n', '\x08', '\x7f']

theorem receive_typed (env : Bus) {ch : Char} (h : typed ch = true) (s : MotorTerminal ℝ) :
    ∃ buffer overflow, receive env s ch = { s with buffer := buffer, overflow := overflow } := by
  simp only [typed, List.mem_cons, List.not_mem_nil, or_false, not_or, decide_eq_true_eq] at h
  obtain ⟨h₁, h₂, h₃, h₄, h₅, h₆⟩ := h
  rw [receive, if_neg (by simp [h₁, h₂]), if_neg (by simp [h₃, h₄]), if_neg (by simp [h₅, h₆])]
  split
  · exact ⟨_, _, rfl⟩
  · exact ⟨_, _, rfl⟩

/-- While a line is typed, the terminal stays at rest. -/
theorem typed_atRest {text : List Char} (h : ∀ ch ∈ text, typed ch = true)
    {s : MotorTerminal ℝ} (hs : s.atRest) :
    (terminalMachine env).Always (Starts env fun s : MotorTerminal ℝ => s.atRest) s
        (text.map .received) ∧
      ((terminalMachine env).run s (text.map .received)).atRest := by
  induction text generalizing s with
  | nil => exact ⟨trivial, hs⟩
  | cons ch text ih =>
    have hnext : (receive env s ch).atRest := by
      obtain ⟨buffer, overflow, heq⟩ := receive_typed env (h ch List.mem_cons_self) s
      rw [heq]
      exact hs
    obtain ⟨halways, hrun⟩ := ih (fun c hc => h c (List.mem_cons_of_mem _ hc)) hnext
    exact ⟨⟨fun _ => hs, halways⟩, hrun⟩

theorem boot_atRest (env : Bus) : (boot env : MotorTerminal ℝ).atRest := by
  obtain ⟨online, queries, output, heq, -⟩ := boot_eq (F := ℝ) env
  rw [heq]
  norm_num [atRest, initial, wheelIndices, MotionProfile.zero]

/-- A line typed at rest is at rest when it ends. -/
theorem line_starts (env : Bus) (text : List Char) (h : ∀ ch ∈ text, typed ch = true) :
    (terminalMachine env).Always (Starts env fun s : MotorTerminal ℝ => s.atRest) (boot env)
      (text.map .received ++ [.received '\r']) := by
  obtain ⟨halways, hrest⟩ := typed_atRest h (boot_atRest env)
  exact Machine.always_append.mpr ⟨halways, fun _ => hrest, trivial⟩

/-- One run, typed after the start-up. -/
theorem no_speed_fault_first :
    let text := ['r', 'u', 'n', ' ', '6', '0', ' ', '-', '6', '0', ' ', '1']
    let s : MotorTerminal ℝ := (terminalMachine (calmBus 20000)).run (boot (calmBus 20000))
      (text.map .received ++ [.received '\r'])
    (s.mode = .shape → SpeedsInHull s) ∧
      ∀ new, (update (calmBus 20000) s).output ≠ .line .speedFault :: (new ++ s.output) :=
  no_speed_fault_from_rest (calmBus 20000) _ (line_starts (calmBus 20000) _ (by simp [typed]))

end MotorTerminal
