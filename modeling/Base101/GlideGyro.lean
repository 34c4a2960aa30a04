/-
What the gyro cannot reach (`glide.c`), over the reals.

The gyro enters the controller only through the closed loop, and the tracking flag only
through the time without tracking, which only the closed loop reads.  Without feedback
the closed loop is never taken; after a coast, the command zero keeps it from being
taken again.

* `glideUpdate_untracked` — an update that does not close the loop, whatever the gyro
  and the motors report;
* `gyro_noninterference` — two runs with the same commands, without feedback or after a
  coast.
-/
import Base101.GlideWindup
import Base101.Responses

open Double

/-! ### Calls -/

/-- The arguments of one `glide_update`. -/
structure GlideCall where
  vx : ℝ
  wz : ℝ
  gyroZ : ℝ
  trackingGood : Bool
  dt : ℝ

/-- `glide_update` with the arguments in a record. -/
noncomputable def glideCall (g : Glide ℝ) (call : GlideCall) : Option (Glide ℝ × ℝ × ℝ) :=
  glideUpdate g call.vx call.wz call.gyroZ call.trackingGood call.dt

/-- What each update of a run returns. -/
noncomputable def glideResponses : Glide ℝ → List GlideCall → List (Option (Glide ℝ × ℝ × ℝ)) :=
  responses glideCall

/-- The same command for the same time. -/
structure SameCommand (call call' : GlideCall) : Prop where
  vx : call'.vx = call.vx
  wz : call'.wz = call.wz
  dt : call'.dt = call.dt

/-- Two updates return the same motion: the rates of the wheels, and a controller that
differs in the time without tracking at most. -/
structure SameOutput (out out' : Glide ℝ × ℝ × ℝ) : Prop where
  rates : out'.2 = out.2
  controller : ∃ trackingBadS, out'.1 = { out.1 with trackingBadS }

/-! ### One update -/

section Update

variable {g : Glide ℝ} {vx wz dt : ℝ}

/-- The shaping does not read the time without tracking. -/
theorem glideShape_untracked (trackingGood trackingGood' : Bool) (bad : ℝ) :
    glideShape { g with trackingBadS := bad } vx wz trackingGood' dt =
      (glideShape g vx wz trackingGood dt).map fun shaped =>
        { shaped with trackingBadS := if trackingGood' then 0 else bad + dt } := by
  rw [glideShape, glideShape]
  show (motionProfileStep g.linear _ _ _ dt >>= fun linear =>
    motionProfileStep g.yaw _ _ _ dt >>= fun yaw => _) = _
  cases motionProfileStep g.linear (clamp vx g.cfg.vxMax) g.cfg.axMax g.cfg.jxMax dt with
  | none => rfl
  | some linear =>
    cases motionProfileStep g.yaw (clamp wz g.cfg.wzMax) g.cfg.alphaMax g.cfg.jalphaMax dt with
    | none => rfl
    | some yaw => rfl

/-- Neither does the open loop. -/
theorem glideOpenLoop_untracked (coast : Bool) (bad : ℝ) :
    glideOpenLoop { g with trackingBadS := bad } coast dt =
      (glideOpenLoop g coast dt).map fun out =>
        ({ out.1 with trackingBadS := bad }, out.2) := by
  rw [glideOpenLoop_eq, glideOpenLoop_eq]
  show (motionProfileStep g.correctionProfile 0 _ _ dt).bind _ = _
  cases motionProfileStep g.correctionProfile 0 g.cfg.correctionAccel g.cfg.correctionJerk dt with
  | none => rfl
  | some profile => rfl

/-- The update takes the open loop. -/
def TakesOpenLoop (g : Glide ℝ) (vx wz dt : ℝ) : Prop :=
  0 < dt → dt ≤ 0.1 → ∀ trackingGood shaped, glideShape g vx wz trackingGood dt = some shaped →
    (glideCoasts shaped vx wz || !shaped.cfg.yawFeedback) = true

/-- An update that takes the open loop returns the same motion whatever the gyro reads
and whether the motors track. -/
theorem glideUpdate_untracked {call call' : GlideCall} (hsame : SameCommand call call')
    (hopen : TakesOpenLoop g call.vx call.wz call.dt) (bad : ℝ) :
    Option.Rel SameOutput (glideCall g call) (glideCall { g with trackingBadS := bad } call') := by
  rw [glideCall, glideCall, hsame.vx, hsame.wz, hsame.dt]
  by_cases hdt : 0 < call.dt ∧ call.dt ≤ 0.1
  · rw [glideUpdate_eq _ _ _ _ _ hdt.1 hdt.2, glideUpdate_eq _ _ _ _ _ hdt.1 hdt.2,
      glideShape_untracked call.trackingGood call'.trackingGood bad]
    cases hshape : glideShape g call.vx call.wz call.trackingGood call.dt with
    | none => exact .none
    | some shaped =>
      have htaken := hopen hdt.1 hdt.2 _ _ hshape
      show Option.Rel SameOutput
        (if glideCoasts shaped call.vx call.wz || !shaped.cfg.yawFeedback then
          glideOpenLoop shaped (glideCoasts shaped call.vx call.wz) call.dt
        else glideClosedLoop shaped call.gyroZ call.dt)
        (if glideCoasts shaped call.vx call.wz || !shaped.cfg.yawFeedback then
          glideOpenLoop { shaped with trackingBadS := _ }
            (glideCoasts shaped call.vx call.wz) call.dt
        else glideClosedLoop { shaped with trackingBadS := _ } call'.gyroZ call.dt)
      rw [if_pos htaken, if_pos htaken,
        glideOpenLoop_untracked _ (if call'.trackingGood then 0 else bad + call.dt)]
      cases glideOpenLoop shaped (glideCoasts shaped call.vx call.wz) call.dt with
      | none => exact .none
      | some out => exact .some ⟨rfl, _, rfl⟩
  · rw [glideUpdate_eq_none hdt, glideUpdate_eq_none hdt]
    exact .none

theorem takesOpenLoop_of_disabled (hdisabled : g.cfg.yawFeedback = false) :
    TakesOpenLoop g vx wz dt := by
  intro _ _ trackingGood shaped hshape
  rw [glideShape_cfg hshape, hdisabled]
  exact Bool.or_true _

end Update

/-! ### Coasting -/

/-- What a coast leaves. -/
structure Coasting (g : Glide ℝ) : Prop where
  within : GlideWithin g
  linear : g.linear = MotionProfile.zero
  yaw : g.yaw = MotionProfile.zero
  integrator : g.integrator = 0

section Coast

variable {g g' shaped : Glide ℝ} {dt gyroZ left right : ℝ} {trackingGood : Bool}

/-- The open loop with the coast: both profiles are dropped, only the correction moves. -/
theorem glideOpenLoop_coast (h : glideOpenLoop shaped true dt = some (g', left, right)) :
    g'.linear = MotionProfile.zero ∧ g'.yaw = MotionProfile.zero ∧ g'.integrator = 0 := by
  rw [glideOpenLoop_eq] at h
  obtain ⟨profile, -, h⟩ := Option.bind_eq_some_iff.mp h
  have hout : g' = (glideFinish (glideFaded shaped true profile)).1 :=
    congrArg Prod.fst (Option.some.inj h).symm
  rw [hout]
  exact ⟨rfl, rfl, rfl⟩

/-- A profile at rest is shaped toward the command zero by staying at rest. -/
theorem motionProfileStep_rest {A J limit : ℝ} (hA : 0 < A) (hJ : 0 < J) (hdt : 0 < dt)
    (hdt' : dt ≤ 0.1) (hlimit : 0 < limit) :
    motionProfileStep MotionProfile.zero (clamp 0 limit) A J dt = some MotionProfile.zero := by
  rw [clamp_of_abs_le (by simpa using hlimit.le),
    motionProfileStep_eq_some hA hJ hdt hdt' (by simpa [MotionProfile.zero] using hA.le),
    motionProfileLoop_rest hA.le hJ.le hdt]

/-- Coasting, the command zero keeps both profiles at rest, so it coasts again. -/
theorem Coasting.coasts (hg : Coasting g) (hdt : 0 < dt) (hdt' : dt ≤ 0.1)
    (hshape : glideShape g 0 0 trackingGood dt = some shaped) :
    glideCoasts shaped 0 0 = true := by
  obtain ⟨linear, yaw, hlinear, hyaw, rfl⟩ := glideShape_some hshape
  have hcfg := hg.within.accepted
  rw [hg.linear, motionProfileStep_rest hcfg.axMax hcfg.jxMax hdt hdt' hcfg.vxMax] at hlinear
  rw [hg.yaw, motionProfileStep_rest hcfg.alphaMax hcfg.jalphaMax hdt hdt' hcfg.wzMax] at hyaw
  obtain rfl := Option.some.inj hlinear
  obtain rfl := Option.some.inj hyaw
  rw [glideCoasts_zero]
  norm_num [Settles, MotionProfile.zero]

/-- An update that coasts leaves a coasting controller. -/
theorem glideUpdate_coasts {vx wz : ℝ} (hg : GlideWithin g)
    (hshape : glideShape g vx wz trackingGood dt = some shaped)
    (hcoast : glideCoasts shaped vx wz = true)
    (hupdate : glideUpdate g vx wz gyroZ trackingGood dt = some (g', left, right)) :
    Coasting g' := by
  obtain ⟨⟨hdt, hdt'⟩, shaped', hshape', hloop⟩ := glideUpdate_some hupdate
  obtain rfl := Option.some.inj (hshape.symm.trans hshape')
  rw [hcoast, if_pos (by simp)] at hloop
  obtain ⟨hlinear, hyaw, hintegrator⟩ := glideOpenLoop_coast hloop
  obtain ⟨final, hfinal, hwithin⟩ := glideUpdate_within vx wz gyroZ trackingGood hg hdt hdt'
  have hout : g' = (glideFinish final).1 :=
    congrArg Prod.fst (Option.some.inj (hupdate.symm.trans hfinal))
  exact ⟨hout ▸ glideWithin_finish hwithin, hlinear, hyaw, hintegrator⟩

end Coast

/-! ### Two runs -/

/-- Runs whose updates all take the open loop return the same motion: `I` says why they
do, and every update keeps it. -/
theorem glideResponses_untracked {I : Glide ℝ → Prop} {G : GlideCall → Prop}
    (hopen : ∀ g call, I g → G call → TakesOpenLoop g call.vx call.wz call.dt)
    (hkeep : ∀ g call out, I g → G call → glideCall g call = some out → I out.1) {g : Glide ℝ}
    {calls calls' : List GlideCall} (hg : I g) (hcalls : ∀ call ∈ calls, G call)
    (hsame : List.Forall₂ SameCommand calls calls') :
    List.Forall₂ (Option.Rel SameOutput) (glideResponses g calls) (glideResponses g calls') := by
  -- beside the motion, the invariant of the first run
  have hruns : List.Forall₂ (Option.Rel fun out out' => SameOutput out out' ∧ I out.1)
      (glideResponses g calls) (glideResponses g calls') := by
    refine responses_related (R := fun g g' => I g ∧ ∃ bad, g' = { g with trackingBadS := bad })
      (E := fun call call' => G call ∧ SameCommand call call') ?_ ?_ ⟨hg, _, rfl⟩
      ((List.forall₂_and_left _ _).mpr ⟨hcalls, hsame⟩)
    · rintro g _ call call' ⟨hg, bad, rfl⟩ ⟨hcall, hsame⟩
      have hstep := glideUpdate_untracked hsame (hopen g call hg hcall) bad
      have hkeep := hkeep g call
      generalize glideCall g call = out at hstep hkeep
      generalize glideCall { g with trackingBadS := bad } call' = out' at hstep
      cases hstep with
      | none => exact .none
      | some hmotion => exact .some ⟨hmotion, hkeep _ hg hcall rfl⟩
    · rintro out out' ⟨hmotion, hout⟩
      exact ⟨hout, hmotion.controller⟩
  refine hruns.imp fun r r' hrel => ?_
  cases hrel with
  | none => exact .none
  | some hout => exact .some hout.1

/-- A coast followed by zero commands never ends. -/
theorem Coasting.call {g : Glide ℝ} {call : GlideCall} {out : Glide ℝ × ℝ × ℝ}
    (hg : Coasting g) (hzero : call.vx = 0 ∧ call.wz = 0) (hcall : glideCall g call = some out) :
    Coasting out.1 := by
  rw [glideCall, hzero.1, hzero.2] at hcall
  obtain ⟨⟨hdt, hdt'⟩, shaped, hshape, -⟩ := glideUpdate_some hcall
  exact glideUpdate_coasts hg.within hshape (hg.coasts hdt hdt' hshape) hcall

/-- **The gyro and the tracking flag do not reach the motion** of a controller without
feedback, nor that of one which has coasted and gets the command zero.  A coasting
controller stays at rest. -/
theorem gyro_noninterference {cfg : GlideConfig ℝ} {g₀ : Glide ℝ}
    (hinit : glideInit cfg = some g₀) (events : List GlideEvent) {calls calls' : List GlideCall}
    (hsame : List.Forall₂ SameCommand calls calls') :
    let g := glideMachine.run g₀ events
    (cfg.yawFeedback = false →
      List.Forall₂ (Option.Rel SameOutput) (glideResponses g calls) (glideResponses g calls')) ∧
    ∀ (last : GlideCall) (shaped start : Glide ℝ) (left right : ℝ),
      glideShape g last.vx last.wz last.trackingGood last.dt = some shaped →
      glideCoasts shaped last.vx last.wz = true →
      glideCall g last = some (start, left, right) →
      (∀ call ∈ calls, call.vx = 0 ∧ call.wz = 0) →
      List.Forall₂ (Option.Rel SameOutput) (glideResponses start calls)
          (glideResponses start calls') ∧
        ∀ out, some out ∈ glideResponses start calls →
          out.1.linear = MotionProfile.zero ∧ out.1.yaw = MotionProfile.zero ∧
            out.1.integrator = 0 := by
  intro g
  obtain ⟨hcfg, rfl⟩ := glideInit_eq_some_iff.mp hinit
  have hgcfg : g.cfg = cfg := glideRun_cfg _ _
  have hwithin : GlideWithin g := glideWithin_run (glideWithin_atRest hcfg) events
  constructor
  · intro hdisabled
    refine glideResponses_untracked (I := fun g => g.cfg.yawFeedback = false)
      (G := fun _ => True) ?_ ?_ ?_ (fun _ _ => trivial) hsame
    · intro g call hg _
      exact takesOpenLoop_of_disabled hg
    · intro g call out hg _ hcall
      rw [glideUpdate_cfg hcall]
      exact hg
    · rw [hgcfg]
      exact hdisabled
  · intro last shaped start left right hshape hcoast hlast hzero
    have hstart : Coasting start := glideUpdate_coasts hwithin hshape hcoast hlast
    constructor
    · refine glideResponses_untracked (I := Coasting)
        (G := fun call => call.vx = 0 ∧ call.wz = 0) ?_ ?_ hstart hzero hsame
      · intro g call hg hcall hdt hdt' trackingGood shaped hshape
        rw [hcall.1, hcall.2] at hshape ⊢
        rw [hg.coasts hdt hdt' hshape]
        rfl
      · intro g call out hg hcall hout
        exact hg.call hcall hout
    · intro out hout
      have hcoasting : Coasting out.1 :=
        responses_keep (G := fun call : GlideCall => call.vx = 0 ∧ call.wz = 0)
          (fun g call out hg hcall hout => Coasting.call hg hcall hout) hstart hzero hout
      exact ⟨hcoasting.linear, hcoasting.yaw, hcoasting.integrator⟩

/-- A controller at rest coasts. -/
theorem coasting_atRest {cfg : GlideConfig ℝ} (h : cfg.Accepted) : Coasting (glideAtRest cfg) :=
  ⟨glideWithin_atRest h, rfl, rfl, rfl⟩

/-- Quiet and noisy, without feedback and after a coast. -/
theorem gyro_noninterference_noisy :
    List.Forall₂ (Option.Rel SameOutput)
        (glideResponses (glideMachine.run (glideAtRest glideOpenLoopConfig)
          [.update 0.1 0.2 0 true 0.02]) [⟨0.1, 0.2, 0, true, 0.02⟩, ⟨0.1, 0.2, 0, true, 0.02⟩])
        (glideResponses (glideMachine.run (glideAtRest glideOpenLoopConfig)
          [.update 0.1 0.2 0 true 0.02])
          [⟨0.1, 0.2, 0.5, true, 0.02⟩, ⟨0.1, 0.2, -0.5, false, 0.02⟩]) ∧
      ∃ start left right,
        glideCall (glideAtRest glideTestConfig) ⟨0, 0, 0.1, true, 0.02⟩ =
          some (start, left, right) ∧
        List.Forall₂ (Option.Rel SameOutput)
          (glideResponses start [⟨0, 0, 0, true, 0.02⟩])
          (glideResponses start [⟨0, 0, 0.5, false, 0.02⟩]) := by
  constructor
  · have hsame : List.Forall₂ SameCommand
        [⟨0.1, 0.2, 0, true, 0.02⟩, ⟨0.1, 0.2, 0, true, 0.02⟩]
        [⟨0.1, 0.2, 0.5, true, 0.02⟩, ⟨0.1, 0.2, -0.5, false, 0.02⟩] :=
      .cons ⟨rfl, rfl, rfl⟩ (.cons ⟨rfl, rfl, rfl⟩ .nil)
    exact (gyro_noninterference (glideInit_eq_some_iff.mpr ⟨glideOpenLoopConfig_accepted, rfl⟩)
      [.update 0.1 0.2 0 true 0.02] hsame).1 rfl
  · have hrest := coasting_atRest glideTestConfig_accepted
    have hdt : (0 : ℝ) < 0.02 := by norm_num
    have hdt' : (0.02 : ℝ) ≤ 0.1 := by norm_num
    obtain ⟨shaped, hshape, -⟩ := glideShape_within 0 0 true hrest.within hdt hdt'
    obtain ⟨final, hfinal, -⟩ := glideUpdate_within 0 0 0.1 true hrest.within hdt hdt'
    have hsame : List.Forall₂ SameCommand [⟨0, 0, 0, true, 0.02⟩] [⟨0, 0, 0.5, false, 0.02⟩] :=
      .cons ⟨rfl, rfl, rfl⟩ .nil
    refine ⟨_, _, _, hfinal, ?_⟩
    exact ((gyro_noninterference (glideInit_eq_some_iff.mpr ⟨glideTestConfig_accepted, rfl⟩) []
      hsame).2 ⟨0, 0, 0.1, true, 0.02⟩ shaped _ _ _ hshape (hrest.coasts hdt hdt' hshape) hfinal
      (by simp)).1
