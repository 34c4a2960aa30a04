/-
Encoder odometry (`odometry.c`).

Two successive valid measurements, close enough in time, move the pose along an
arc; a missing measurement breaks the integration.
-/
import Base101.Double

/-- `odometry_t`. -/
structure Odometry (F : Type) where
  x : F
  y : F
  yaw : F
  vx : F
  wz : F
  sampleUs : UInt64
  tracking : Bool
  valid : Bool
deriving DecidableEq

variable {F : Type} [Double F]

open Double

/-- `(odometry_t){0}`. -/
def Odometry.zero : Odometry F :=
  { x := 0, y := 0, yaw := 0, vx := 0, wz := 0, sampleUs := 0, tracking := false, valid := false }

/-- The arc between the last measurement and this one, at the mean velocities. -/
def odometryAdvance (o : Odometry F) (vx wz dt : F) : Odometry F :=
  let distance := (o.vx + vx) * 0.5 * dt
  let turn := (o.wz + wz) * 0.5 * dt
  let mid := o.yaw + turn * 0.5
  let yaw := remainder (o.yaw + turn) (2 * pi)
  { o with
    x := o.x + distance * cos mid
    y := o.y + distance * sin mid
    yaw := if yaw ≤ -pi then yaw + 2 * pi else yaw }

/-- The measurement continues the interval of the last one. -/
def odometryTracks (o : Odometry F) (nowUs maxDtUs : UInt64) : Bool :=
  o.tracking && o.sampleUs < nowUs && nowUs - o.sampleUs ≤ maxDtUs

def odometryUpdate (o : Odometry F) (nowUs : UInt64) (vx wz : F) (valid : Bool)
    (maxDtUs : UInt64) : Odometry F :=
  if !(valid && isfinite vx && isfinite wz) then { o with valid := false, tracking := false }
  else
    -- the measurement is taken over even when the interval is too long to integrate
    let o := if odometryTracks o nowUs maxDtUs then
        odometryAdvance o vx wz (((nowUs - o.sampleUs).toNat : F) / 1000000.0)
      else o
    { o with vx, wz, sampleUs := nowUs, valid := true, tracking := true }

/-- The pose is put at the origin, and the next measurement starts a new interval. -/
def odometryResetPose (o : Odometry F) : Odometry F :=
  { o with x := 0, y := 0, yaw := 0, valid := false, tracking := false }
