/-
Body-velocity shaping and yaw closure (`glide.c`).

`glideUpdate` advances the linear and yaw profiles toward the clamped command,
corrects the yaw rate from the gyro and allocates the result to the two sides.
`none` is the source's `false`: the controller is left as it was.

* `glideInit_eq_some` — an accepted configuration is taken as it is, at rest;
* `glideUpdate_cfg` — and no update changes it.
-/
import Base101.MotionProfile

/-- `glide_config_t`. -/
structure GlideConfig (F : Type) where
  radius : F
  separation : F
  icr : F
  wheelMax : F
  vxMax : F
  wzMax : F
  axMax : F
  alphaMax : F
  jxMax : F
  jalphaMax : F
  yawKp : F
  yawKi : F
  correctionMax : F
  deadband : F
  correctionAccel : F
  correctionJerk : F
  yawFeedback : Bool
deriving DecidableEq

/-- `glide_t`. -/
structure Glide (F : Type) where
  cfg : GlideConfig F
  linear : MotionProfile F
  yaw : MotionProfile F
  correctionProfile : MotionProfile F
  integrator : F
  correction : F
  trackingBadS : F
  saturated : Bool
deriving DecidableEq

variable {F : Type} [Double F]

open Double

/-- A controller at rest. -/
def glideAtRest (cfg : GlideConfig F) : Glide F :=
  { cfg, linear := .zero, yaw := .zero, correctionProfile := .zero
    integrator := 0, correction := 0, trackingBadS := 0, saturated := false }

/-- The fields that must be positive. -/
def GlideConfig.positive (cfg : GlideConfig F) : List F :=
  [cfg.radius, cfg.separation, cfg.icr, cfg.wheelMax, cfg.vxMax, cfg.wzMax, cfg.axMax,
    cfg.alphaMax, cfg.jxMax, cfg.jalphaMax, cfg.correctionAccel, cfg.correctionJerk]

/-- The fields that must not be negative. -/
def GlideConfig.nonnegative (cfg : GlideConfig F) : List F :=
  [cfg.yawKp, cfg.yawKi, cfg.correctionMax, cfg.deadband]

def glideInit (cfg : GlideConfig F) : Option (Glide F) :=
  if cfg.positive.any fun x => !isfinite x || x ≤ 0 then none
  else if cfg.nonnegative.any fun x => !isfinite x || x < 0 then none
  else some (glideAtRest cfg)

def glideReset (g : Glide F) : Glide F := glideAtRest g.cfg

/-- `allocate`: the wheel rates of the two sides, scaled together to the cap. -/
def glideAllocate (g : Glide F) (correction : F) : F × F × Bool :=
  let angular := (g.yaw.velocity + correction) * g.cfg.icr
  let turn := angular * g.cfg.separation * 0.5
  let left := (g.linear.velocity - turn) / g.cfg.radius
  let right := (g.linear.velocity + turn) / g.cfg.radius
  let peak := fmax (fabs left) (fabs right)
  if g.cfg.wheelMax < peak then
    -- both sides are scaled, so the curvature is kept
    let scale := g.cfg.wheelMax / peak
    (left * scale, right * scale, true)
  else (left, right, false)

/-- The end of both branches: the correction is clamped and the wheels allocated. -/
def glideFinish (g : Glide F) : Glide F × F × F :=
  let g := { g with correction := clamp g.correctionProfile.velocity g.cfg.correctionMax }
  let allocated := glideAllocate g g.correction
  ({ g with saturated := allocated.2.2 }, allocated.1, allocated.2.1)

/-- The branch without yaw closure: at rest, or with feedback disabled. -/
def glideOpenLoop (g : Glide F) (coast : Bool) (dt : F) : Option (Glide F × F × F) := do
  let g := { g with integrator := 0 }
  let g := if coast then { g with linear := .zero, yaw := .zero } else g
  -- the correction is faded out, not dropped
  let profile ← motionProfileStep g.correctionProfile 0 g.cfg.correctionAccel
    g.cfg.correctionJerk dt
  let profile := if fabs profile.velocity < 1e-4 && fabs profile.acceleration < 1e-3 then
      MotionProfile.zero else profile
  some (glideFinish { g with correctionProfile := profile })

/-- The branch with yaw closure.  The integrator is frozen while the allocation or
the correction saturates or the motors fail to track, but may unwind. -/
def glideClosedLoop (g : Glide F) (gyroZ dt : F) : Option (Glide F × F × F) := do
  let error := g.yaw.velocity - gyroZ
  let error := if fabs error < g.cfg.deadband then 0 else error
  let candidate := clamp (g.integrator + g.cfg.yawKi * error * dt) g.cfg.correctionMax
  let raw := g.cfg.yawKp * error + candidate
  -- this allocation only asks whether the caps bind
  let saturated := (glideAllocate g (clamp raw g.cfg.correctionMax)).2.2
  let constrained := saturated || g.cfg.correctionMax < fabs raw || 0.2 ≤ g.trackingBadS
  let unwinding : Bool := g.integrator * error < 0
  let integrator := if !constrained || unwinding then candidate else g.integrator
  let desired := clamp (g.cfg.yawKp * error + integrator) g.cfg.correctionMax
  let profile ← motionProfileStep g.correctionProfile desired g.cfg.correctionAccel
    g.cfg.correctionJerk dt
  some (glideFinish { g with integrator, correctionProfile := profile })

/-- The profiles after the update, and how long the motors have failed to track. -/
def glideShape (g : Glide F) (vx wz : F) (trackingGood : Bool) (dt : F) : Option (Glide F) := do
  let linear ← motionProfileStep g.linear (clamp vx g.cfg.vxMax) g.cfg.axMax g.cfg.jxMax dt
  let yaw ← motionProfileStep g.yaw (clamp wz g.cfg.wzMax) g.cfg.alphaMax g.cfg.jalphaMax dt
  some { g with linear, yaw, trackingBadS := if trackingGood then 0 else g.trackingBadS + dt }

/-- The shaped motion has reached a commanded stop. -/
def glideCoasts (g : Glide F) (vx wz : F) : Bool :=
  vx == 0 && wz == 0 && fabs g.linear.velocity < 1e-4 && fabs g.yaw.velocity < 1e-4 &&
    fabs g.linear.acceleration < 1e-3 && fabs g.yaw.acceleration < 1e-3

/-- The controller after the update and the rates of the left and right wheels. -/
def glideUpdate (g : Glide F) (vx wz gyroZ : F) (trackingGood : Bool) (dt : F) :
    Option (Glide F × F × F) :=
  if !isfinite vx || !isfinite wz || !isfinite gyroZ || !isfinite dt || dt ≤ 0 || 0.1 < dt then
    none
  else do
    let g ← glideShape g vx wz trackingGood dt
    if glideCoasts g vx wz || !g.cfg.yawFeedback then glideOpenLoop g (glideCoasts g vx wz) dt
    else glideClosedLoop g gyroZ dt

/-! ### Configurations -/

/-- An accepted configuration is taken as it is, at rest. -/
theorem glideInit_eq_some {cfg : GlideConfig F} {g : Glide F} (h : glideInit cfg = some g) :
    g = glideAtRest cfg := by
  rw [glideInit] at h
  -- two of the three branches return `none`
  split_ifs at h
  exact (Option.some.inj h).symm

@[simp] theorem glideFinish_cfg (g : Glide F) : (glideFinish g).1.cfg = g.cfg := rfl

theorem glideOpenLoop_cfg {g : Glide F} {coast : Bool} {dt : F} {out : Glide F × F × F}
    (h : glideOpenLoop g coast dt = some out) : out.1.cfg = g.cfg := by
  simp only [glideOpenLoop, Option.bind_eq_bind, Option.bind_eq_some_iff] at h
  obtain ⟨profile, -, h⟩ := h
  cases h
  simp [apply_ite Glide.cfg]

theorem glideClosedLoop_cfg {g : Glide F} {gyroZ dt : F} {out : Glide F × F × F}
    (h : glideClosedLoop g gyroZ dt = some out) : out.1.cfg = g.cfg := by
  simp only [glideClosedLoop, Option.bind_eq_bind, Option.bind_eq_some_iff] at h
  obtain ⟨profile, -, h⟩ := h
  cases h
  rfl

theorem glideShape_cfg {g g' : Glide F} {vx wz dt : F} {trackingGood : Bool}
    (h : glideShape g vx wz trackingGood dt = some g') : g'.cfg = g.cfg := by
  simp only [glideShape, Option.bind_eq_bind, Option.bind_eq_some_iff] at h
  obtain ⟨linear, -, yaw, -, h⟩ := h
  cases h
  rfl

/-- An update never changes the configuration. -/
theorem glideUpdate_cfg {g : Glide F} {vx wz gyroZ dt : F} {trackingGood : Bool}
    {out : Glide F × F × F} (h : glideUpdate g vx wz gyroZ trackingGood dt = some out) :
    out.1.cfg = g.cfg := by
  rw [glideUpdate] at h
  split at h
  · cases h
  · obtain ⟨g', hshape, h⟩ := Option.bind_eq_some_iff.mp h
    rw [← glideShape_cfg hshape]
    split at h
    · exact glideOpenLoop_cfg h
    · exact glideClosedLoop_cfg h

/-! ### Exact arithmetic -/

/-- Over exact numbers the signs are all that is checked. -/
theorem glideInit_exact {K : Type} [Field K] [LinearOrder K] [FloorRing K] [Libm K]
    {cfg : GlideConfig K} (hpositive : ∀ x ∈ cfg.positive, 0 < x)
    (hnonnegative : ∀ x ∈ cfg.nonnegative, 0 ≤ x) : glideInit cfg = some (glideAtRest cfg) := by
  rw [glideInit, if_neg, if_neg]
  · simpa using hnonnegative
  · simpa using hpositive
