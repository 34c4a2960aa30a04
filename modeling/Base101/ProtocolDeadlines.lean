/-
The two deadlines on motion: the trial bound and the release backstop.

Both are cleared or moved by calls that a host can repeat, so each holds under a
condition on the lines that arrive.

* `trial_bound_holds` — a trial bound ends motion, as long as no `drive` is
  acceptable once the bound has been dropped;
* `release_backstop_holds` — the backstop ends a release after two seconds, as
  long as no further `release` renews it.
-/
import Base101.ProtocolSafety

open Double CalibrationProtocol

section Calls

variable {F : Type} [Double F]

namespace CalibrationProtocol

variable {s : CalibrationProtocol F} {now : UInt64}

/-- No deadline that an expiry tests has been reached. -/
structure Current (s : CalibrationProtocol F) (now : UInt64) : Prop where
  bound : ¬s.BoundReached now
  session : s.session → ¬s.HeartbeatLapsed now
  driving : s.driving → ¬s.OperatorLapsed now
  releasing : s.releasing → ¬s.ReleaseReached now

instance (s : CalibrationProtocol F) (now : UInt64) : Decidable (s.Current now) :=
  decidable_of_iff (¬s.BoundReached now ∧ (s.session → ¬s.HeartbeatLapsed now) ∧
      (s.driving → ¬s.OperatorLapsed now) ∧ (s.releasing → ¬s.ReleaseReached now))
    ⟨fun h => ⟨h.1, h.2.1, h.2.2.1, h.2.2.2⟩,
      fun h => ⟨h.bound, h.session, h.driving, h.releasing⟩⟩

/-- Motion outlasts an expiry only while every deadline is ahead. -/
theorem Expired.moving {out : CalibrationProtocol F × Bool} (h : Expired s now out)
    (hm : out.1.Moving) : out.1 = s ∧ s.Current now := by
  cases h with
  | nothing hbound hsession hdriving hreleasing =>
    -- the only outcome without a stop is the one that found nothing to expire
    exact ⟨rfl, hbound, hsession, hdriving, hreleasing⟩
  | bound | heartbeat | operator | release => exact absurd hm (calibrationStop_not_moving _)

/-- Without a deadline reached, an expiry does nothing. -/
theorem Expired.current {out : CalibrationProtocol F × Bool} (h : Expired s now out)
    (hc : s.Current now) : out.1 = s := by
  cases h with
  | bound hb => exact absurd hb hc.bound
  | heartbeat _ hs hl => exact absurd hl (hc.session hs)
  | operator _ _ hd hl => exact absurd hl (hc.driving hd)
  | release _ _ _ hr hl => exact absurd hl (hc.releasing hr)
  | nothing => rfl

/-- An expiry keeps the trial bound or drops it. -/
theorem Expired.boundUntilUs {out : CalibrationProtocol F × Bool} (h : Expired s now out) :
    out.1.boundUntilUs = s.boundUntilUs ∨ out.1.boundUntilUs = 0 := by
  cases h with
  | nothing => exact .inl rfl
  | _ => exact .inr rfl

/-- So does a line, other than `bound`. -/
theorem Handled.boundUntilUs {brake : Bool} {r : Option Request}
    {out : CalibrationProtocol F × Bool × Option String} (h : Handled s now brake r out)
    (hr : ¬(out.2.2 = none ∧ ∃ ms, r = some (.bound ms))) :
    out.1.boundUntilUs = s.boundUntilUs ∨ out.1.boundUntilUs = 0 := by
  cases h with
  | bound => exact absurd ⟨rfl, _, rfl⟩ hr
  | rejectedDrive | stop | hello | calibrate | idleRelease => exact .inr rfl
  | _ => exact .inl rfl

/-- Motion after a line was there before, or is a drive accepted now; neither
touches the trial bound. -/
theorem Handled.moving {brake : Bool} {r : Option Request}
    {out : CalibrationProtocol F × Bool × Option String} (h : Handled s now brake r out)
    (hm : out.1.Moving) :
    out.1.boundUntilUs = s.boundUntilUs ∧
      (s.Moving ∨ out.2.2 = none ∧ ∃ vx wz, r = some (.drive vx wz)) := by
  cases h with
  | refused | status | heartbeat => exact ⟨rfl, .inl hm⟩
  | drive => exact ⟨rfl, .inr ⟨rfl, _, _, rfl⟩⟩
  | release _ hmoving => exact ⟨rfl, .inl hmoving⟩
  | configure _ _ hstill | measure _ _ _ hstill | bound _ _ hstill => exact absurd hm hstill
  | rejectedDrive | stop | hello | idleRelease =>
    exact absurd hm (calibrationStop_not_moving _)
  | calibrate => simp [Moving, calibrationStop] at hm

/-- The line asks for a drive with velocities in range, in a session that is
ready, fault-free and not closed by this call. -/
def DriveAcceptable (s : CalibrationProtocol F) (line : List Char) (now : UInt64) : Prop :=
  (∃ vx wz, lineRequest line = some (.drive vx wz) ∧
      (value vx (-0.4) 0.4 : Option F).isSome ∧ (value wz (-0.8) 0.8 : Option F).isSome) ∧
    s.ready ∧ s.fault = false ∧ s.session ∧ (s.HeartbeatLapsed now → s.BoundReached now)

end CalibrationProtocol

theorem CalibrationProtocol.Expired.ready {s : CalibrationProtocol F} {now : UInt64}
    {out : CalibrationProtocol F × Bool} (h : Expired s now out) : out.1.ready = s.ready := by
  cases h <;> rfl

/-- The session after an expiry. -/
theorem CalibrationProtocol.Expired.session_iff {s : CalibrationProtocol F} {now : UInt64}
    {out : CalibrationProtocol F × Bool} (h : Expired s now out) :
    out.1.session ↔ s.session ∧ (s.HeartbeatLapsed now → s.BoundReached now) := by
  cases h with
  | bound hb => exact ⟨fun hs => ⟨hs, fun _ => hb⟩, And.left⟩
  | heartbeat hb _ hl => exact ⟨nofun, fun hs => absurd (hs.2 hl) hb⟩
  | operator _ hs | release _ hs | nothing _ hs =>
    exact ⟨fun hopen => ⟨hopen, fun hl => absurd hl (hs hopen)⟩, And.left⟩

/-- `DriveAcceptable` is the condition under which a drive is accepted. -/
theorem driveAcceptable_iff {s : CalibrationProtocol F} {line : List Char} {now : UInt64} :
    s.DriveAcceptable line now ↔ ∃ vx wz, accepted s line now = some (.drive vx wz) := by
  constructor
  · rintro ⟨⟨vx, wz, hline, hv, hw⟩, hready, hfault, hsession⟩
    refine ⟨vx, wz, ?_⟩
    obtain ⟨v, hv⟩ := Option.isSome_iff_exists.mp hv
    obtain ⟨w, hw⟩ := Option.isSome_iff_exists.mp hw
    have hexpired := expired s now
    -- the line is well formed, so it reaches the dispatch after the expiry
    have hwell : wellFormed line := by
      by_contra hbad
      simp [lineRequest, hbad] at hline
    have hrequest : request (arguments line) = .drive vx wz := by
      simpa [lineRequest, hwell] using hline
    have hdrive := dispatch_drive (calibrationExpire s now).1.idle now
      (calibrationExpire s now).2 (hexpired.session_iff.mpr hsession)
      (hexpired.ready.trans hready) (hexpired.fault.trans hfault) hv hw
    have hok : (calibrationCommand s line now).2.2.isOk = true := by
      rw [calibrationCommand]
      simp only [hwell, hrequest, Bool.not_true, Bool.false_eq_true, if_false]
      rw [idle] at hdrive
      rw [hdrive]
      rfl
    rw [accepted, if_pos hok, hline]
  · rintro ⟨vx, wz, h⟩
    obtain ⟨hline, expired, s', brake, hexpired, -, handled⟩ := handled_of_accepted h
    cases handled with
    | drive hsession hready hfault hv hw =>
      have hopen := hexpired.session_iff.mp hsession
      exact ⟨⟨vx, wz, hline, by rw [hv]; rfl, by rw [hw]; rfl⟩, hexpired.ready.symm.trans hready,
        hexpired.fault.symm.trans hfault, hopen⟩
    | configure _ _ _ hp => cases hp

end Calls

/-! ### The trial bound -/

section Bound

variable {F : Type} [Double F]

/-- The requests after which a trial bound need not be kept. -/
def Request.endsTrial : Request → Bool
  | .stop | .hello _ | .calibrate | .bound _ => true
  | _ => false

/-- A trial bound set before the event is still to be kept after it. -/
def KeepsTrial (run : ProtocolRun F) : ProtocolEvent → Prop
  | .command line now => ∀ r ∈ accepted run.state line now, r.endsTrial = false
  | .disconnect => False
  | _ => True

instance (run : ProtocolRun F) : (e : ProtocolEvent) → Decidable (KeepsTrial run e)
  | .command line now =>
    inferInstanceAs (Decidable (∀ r ∈ accepted run.state line now, r.endsTrial = false))
  | .disconnect => .isFalse id
  | .expire _ | .stop _ | .fault _ | .observe _ _ => .isTrue trivial

/-- An acceptable `drive` arrives while a trial bound is set and no deadline has
been reached. -/
def DrivesUnderBound (run : ProtocolRun F) : ProtocolEvent → Prop
  | .command line now => run.state.DriveAcceptable line now →
      run.state.boundUntilUs ≠ 0 ∧ run.state.Current now
  | _ => True

/-- Motion is under the trial bound `until'`, and no other bound is set. -/
structure UnderBound (until' : UInt64) (s : CalibrationProtocol F) : Prop where
  armed : s.boundUntilUs ≠ 0 → s.boundUntilUs = until'
  moving : s.Moving → s.boundUntilUs ≠ 0

variable {until' now : UInt64} {s : CalibrationProtocol F}

omit [Double F] in
theorem UnderBound.of_still (h : ¬s.Moving) (hb : s.boundUntilUs = 0) : UnderBound until' s :=
  ⟨fun hne => absurd hb hne, fun hm => absurd hm h⟩

theorem UnderBound.expire {out : CalibrationProtocol F × Bool} (h : UnderBound until' s)
    (hout : Expired s now out) : UnderBound until' out.1 where
  armed hne := by
    rcases hout.boundUntilUs with hkept | hdropped
    · rw [hkept] at hne ⊢
      exact h.armed hne
    · exact absurd hdropped hne
  moving hm := by
    obtain ⟨hsame, -⟩ := hout.moving hm
    rw [hsame] at hm ⊢
    exact h.moving hm

/-- A command keeps motion under the bound. -/
theorem UnderBound.command {run : ProtocolRun F} {line : List Char}
    (h : UnderBound until' run.state) (hkeeps : KeepsTrial run (.command line now))
    (hdrives : DrivesUnderBound run (.command line now)) :
    UnderBound until' (calibrationCommand run.state line now).1 := by
  obtain ⟨expired, error, hexpired, handled, hacc⟩ := commanded_accepted run.state line now
  have hmoving := handled.moving
  have hbound := handled.boundUntilUs
  generalize calibrationCommand run.state line now = out at hmoving hbound
  have hafter : UnderBound until' expired.1 := h.expire hexpired
  constructor
  · intro hne
    rcases hbound (by
      rintro ⟨herror, ms, hline⟩
      change error = none at herror
      exact absurd (hkeeps (.bound ms) (by rw [hacc, if_pos herror, hline]; rfl)) nofun)
      with hkept | hdropped
    · rw [hkept] at hne ⊢
      exact hafter.armed hne
    · exact absurd hdropped hne
  · intro hm
    obtain ⟨huntouched, hbefore | ⟨herror, vx, wz, hline⟩⟩ := hmoving hm
    · rw [huntouched]
      exact hafter.moving hbefore
    · -- a drive accepted now: the bound was set, and the expiry did nothing
      change error = none at herror
      obtain ⟨hset, hcurrent⟩ := hdrives
        (driveAcceptable_iff.mpr ⟨vx, wz, by rw [hacc, if_pos herror, hline]⟩)
      rw [huntouched]
      show expired.1.boundUntilUs ≠ 0
      rw [hexpired.current hcurrent]
      exact hset

theorem UnderBound.step {run : ProtocolRun F} {e : ProtocolEvent}
    (h : UnderBound until' run.state) (hkeeps : KeepsTrial run e)
    (hdrives : DrivesUnderBound run e) :
    UnderBound until' ((protocolMachine F).step run e).state := by
  cases e with
  | command line now => exact h.command hkeeps hdrives
  | expire now => exact h.expire (expired run.state now)
  | disconnect => exact hkeeps.elim
  | stop reason => exact .of_still (calibrationStop_not_moving _) rfl
  | fault reason => exact .of_still (calibrationFault_not_moving _) rfl
  | observe ready atRest => exact ⟨h.armed, h.moving⟩

/-- A call at or after the bound leaves nothing moving. -/
theorem UnderBound.reached {run : ProtocolRun F} {e : ProtocolEvent}
    (h : UnderBound until' run.state) (hdrives : DrivesUnderBound run e)
    (he : (protocolMachine F).time e = some now) (hnow : until' ≤ now) :
    ¬((protocolMachine F).step run e).state.Moving := by
  have stopped {out : CalibrationProtocol F × Bool} (hout : Expired run.state now out) :
      ¬out.1.Moving := by
    intro hm
    obtain ⟨hsame, hcurrent⟩ := hout.moving hm
    rw [hsame] at hm
    have hset := h.moving hm
    exact hcurrent.bound ⟨hset, by rw [h.armed hset]; exact hnow⟩
  cases e with
  | command line now' =>
    cases he
    obtain ⟨expired, error, hexpired, handled, hacc⟩ := commanded_accepted run.state line now
    intro hm
    obtain ⟨-, hbefore | ⟨herror, vx, wz, hline⟩⟩ := handled.moving hm
    · exact stopped hexpired hbefore
    · change error = none at herror
      obtain ⟨hset, hcurrent⟩ := hdrives
        (driveAcceptable_iff.mpr ⟨vx, wz, by rw [hacc, if_pos herror, hline]⟩)
      exact hcurrent.bound ⟨hset, by rw [h.armed hset]; exact hnow⟩
  | expire now' =>
    cases he
    exact stopped (expired run.state now)
  | _ => cases he

/-- A drive accepted by a call is in progress after it. -/
theorem driving_of_accepted {s : CalibrationProtocol F} {line : List Char} {vx wz : String}
    (h : accepted s line now = some (.drive vx wz)) :
    (calibrationCommand s line now).1.driving := by
  obtain ⟨-, expired, s', brake, -, hs', handled⟩ := handled_of_accepted h
  rw [hs']
  cases handled with
  | drive => rfl
  | configure _ _ _ hp => cases hp

end Bound

section TrialBound

variable {K : Type} [Field K] [LinearOrder K] [IsStrictOrderedRing K] [FloorRing K] [Libm K]

/-- A call at or after `deadline` (in microseconds) leaves nothing moving. -/
def EndsBy (deadline : K) (run : ProtocolRun K) (e : ProtocolEvent) : Prop :=
  ∀ now, (protocolMachine K).time e = some now → deadline ≤ now.toNat →
    let s := ((protocolMachine K).step run e).state
    s.driving = false ∧ s.releasing = false

/-- The bound the code computes is not after the deadline, wrap-around or not. -/
theorem bound_le {t₀ now : UInt64} {v : K} (hv : 0 ≤ v)
    (h : (t₀.toNat : K) + 1000 * v ≤ now.toNat) :
    t₀ + UInt64.ofNat (toInt (v * 1000)).toNat ≤ now := by
  have hv' : 0 ≤ v * 1000 := by positivity
  have hfloor : ((toInt (v * 1000)).toNat : K) ≤ v * 1000 := by
    rw [toInt_of_nonneg hv']
    have hcast : ((⌊v * 1000⌋.toNat : ℕ) : K) = ((⌊v * 1000⌋ : ℤ) : K) := by
      have hnat : ((⌊v * 1000⌋.toNat : ℤ)) = ⌊v * 1000⌋ :=
        Int.toNat_of_nonneg (Int.floor_nonneg.mpr hv')
      exact_mod_cast hnat
    rw [hcast]
    exact Int.floor_le _
  have hsum : t₀.toNat + (toInt (v * 1000)).toNat ≤ now.toNat := by
    have hle : ((t₀.toNat + (toInt (v * 1000)).toNat : ℕ) : K) ≤ (now.toNat : K) := by
      push_cast
      linarith
    exact_mod_cast hle
  apply Clock.add_le_of_toNat_add_le
  -- the cast to 64 bits can only make the bound earlier
  have hmod : (UInt64.ofNat (toInt (v * 1000)).toNat).toNat ≤ (toInt (v * 1000)).toNat := by
    rw [UInt64.toNat_ofNat']
    exact Nat.mod_le _ _
  omega

omit [IsStrictOrderedRing K] in
/-- After an accepted `bound`, the state is at rest under that bound. -/
theorem underBound_of_accepted {s : CalibrationProtocol K} {line : List Char} {t₀ : UInt64}
    {ms : String} {v : K} (h : accepted s line t₀ = some (.bound ms))
    (hms : value ms (100 : K) 30000 = some v) :
    UnderBound (t₀ + UInt64.ofNat (toInt (v * 1000)).toNat) (calibrationCommand s line t₀).1 := by
  obtain ⟨-, expired, s', brake, -, hs', handled⟩ := handled_of_accepted h
  rw [hs']
  cases handled with
  | bound _ _ hstill hv =>
    rw [hms] at hv
    cases hv
    exact ⟨fun _ => rfl, fun hm => absurd hm hstill⟩
  | configure _ _ _ hp => cases hp

/-- In the window of a trial bound of `v` ms accepted at `t₀`: if every
acceptable drive arrives while the bound is set and no deadline is reached, every
call from `t₀ + 1000 * v` on leaves nothing moving.  At such a call the condition
is also necessary. -/
theorem trial_bound_holds (defaults : CalibrationParameters K) (pre win : List ProtocolEvent)
    (line : List Char) (t₀ : UInt64) (ms : String) (v : K)
    (hbound : accepted ((protocolMachine K).run (.boot defaults) pre).state line t₀ =
      some (.bound ms))
    (hms : value ms (100 : K) 30000 = some v)
    (hkeeps : (protocolMachine K).Always KeepsTrial
      ((protocolMachine K).run (.boot defaults) (pre ++ [.command line t₀])) win) :
    let start := (protocolMachine K).run (.boot defaults) (pre ++ [.command line t₀])
    let deadline := (t₀.toNat : K) + 1000 * v
    ((protocolMachine K).Always DrivesUnderBound start win →
        (protocolMachine K).Always (EndsBy deadline) start win) ∧
      ∀ run e, EndsBy deadline run e →
        ∀ now, (protocolMachine K).time e = some now → deadline ≤ now.toNat →
          DrivesUnderBound run e := by
  intro start deadline
  have hrange : 100 ≤ v ∧ v ≤ 30000 := inRange_exact.mp (value_inRange hms)
  have hstart : UnderBound (t₀ + UInt64.ofNat (toInt (v * 1000)).toNat) start.state := by
    show UnderBound _ ((protocolMachine K).run _ _).state
    rw [Machine.run_append]
    exact underBound_of_accepted hbound hms
  constructor
  · intro hdrives
    -- the invariant is `UnderBound`; it turns into the conclusion at every call
    refine Machine.always_of_guarded
      (I := fun run : ProtocolRun K =>
        UnderBound (t₀ + UInt64.ofNat (toInt (v * 1000)).toNat) run.state)
      (fun run e h hg => h.step hg.1 hg.2) ?_ hstart (Machine.always_and.mpr ⟨hkeeps, hdrives⟩)
    intro run e h hg now he hnow
    exact not_moving_iff.mp (h.reached hg.2 he (bound_le (by linarith [hrange.1]) hnow))
  · intro run e hends now he hnow
    cases e with
    | command line' now' =>
      -- an acceptable drive would be accepted and leave motion past the deadline
      intro hacceptable
      cases he
      obtain ⟨vx, wz, haccepted⟩ := driveAcceptable_iff.mp hacceptable
      have hdriving := driving_of_accepted haccepted
      have hstopped : (calibrationCommand run.state line' now).1.driving = false :=
        (hends now rfl hnow).1
      rw [hstopped] at hdriving
      cases hdriving
    | _ => trivial

/-- A session that has accepted nothing yet. -/
def helloEvents : List ProtocolEvent :=
  [.observe true true, .command "40 hello 2".toList 0]

/-- A drive under a bound of 100 ms ends with the expiry at the deadline. -/
theorem trial_bound_holds_driving :
    let run := (protocolMachine ℚ).run (.boot testParameters)
      (helloEvents ++ [.command "41 bound 100".toList 1] ++ [.command "42 drive .1 0".toList 2])
    run.state.driving = true ∧
      ((protocolMachine ℚ).step run (.expire 100001)).state.driving = false := by
  have h := (trial_bound_holds testParameters helloEvents
    [.command "42 drive .1 0".toList 2, .expire 100001] "41 bound 100".toList 1 "100" 100
    (by decide +kernel) (by decide +kernel) ⟨by decide +kernel, trivial, trivial⟩).1
    ⟨fun _ => by decide +kernel, trivial, trivial⟩
  exact ⟨by decide +kernel, (h.2.1 100001 rfl (by decide +kernel)).1⟩

/-- The bound of 100 ms set at 1 us is dropped by the call that reaches it, and
the drive in that same call is accepted. -/
theorem trial_bound_dropped :
    (protocolMachine ℚ).Timely 0
        (helloEvents ++
          .command "41 bound 100".toList 1 :: [.command "42 drive .1 0".toList 200000]) ∧
      accepted ((protocolMachine ℚ).run (.boot testParameters) helloEvents).state
        "41 bound 100".toList 1 = some (.bound "100") ∧
      ¬(protocolMachine ℚ).Always (EndsBy (1 + 1000 * 100))
        ((protocolMachine ℚ).run (.boot testParameters)
          (helloEvents ++ [.command "41 bound 100".toList 1]))
        [.command "42 drive .1 0".toList 200000] := by
  refine ⟨by decide +kernel, by decide +kernel, ?_⟩
  intro h
  have hend := h.1 200000 rfl (by decide +kernel)
  revert hend
  decide +kernel

end TrialBound

/-! ### The release backstop -/

section Backstop

variable {F : Type} [Double F]

def Request.isDrive : Request → Bool
  | .drive _ _ => true
  | _ => false

/-- The event is not an accepted `drive`. -/
def AcceptsNoDrive (run : ProtocolRun F) : ProtocolEvent → Prop
  | .command line now => ∀ r ∈ accepted run.state line now, r.isDrive = false
  | _ => True

instance (run : ProtocolRun F) : (e : ProtocolEvent) → Decidable (AcceptsNoDrive run e)
  | .command line now =>
    inferInstanceAs (Decidable (∀ r ∈ accepted run.state line now, r.isDrive = false))
  | .disconnect | .expire _ | .stop _ | .fault _ | .observe _ _ => .isTrue trivial

/-- No `release` arrives while a release is in progress, its session is open and
no deadline has been reached. -/
def RenewsNoRelease (run : ProtocolRun F) : ProtocolEvent → Prop
  | .command line now => ¬(lineRequest line = some .release ∧ run.state.releasing ∧
      run.state.session ∧ run.state.Current now)
  | _ => True

instance (run : ProtocolRun F) : (e : ProtocolEvent) → Decidable (RenewsNoRelease run e)
  | .command _ _ => inferInstanceAs (Decidable (¬(_ ∧ _)))
  | .disconnect | .expire _ | .stop _ | .fault _ | .observe _ _ => .isTrue trivial

/-- Nothing is driving, and a release in progress ends at `until'`. -/
structure ReleasedBy (until' : UInt64) (s : CalibrationProtocol F) : Prop where
  driving : s.driving = false
  deadline : s.releasing → s.releaseUntilUs = until'

/-- A call at or after `deadline` (in microseconds) leaves no release in progress. -/
def ReleaseEndsBy (deadline : ℕ) (run : ProtocolRun F) (e : ProtocolEvent) : Prop :=
  ∀ now, (protocolMachine F).time e = some now → deadline ≤ now.toNat →
    ((protocolMachine F).step run e).state.releasing = false

variable {until' now : UInt64} {s : CalibrationProtocol F}

omit [Double F] in
theorem ReleasedBy.of_still (h : ¬s.Moving) : ReleasedBy until' s := by
  obtain ⟨hdriving, hreleasing⟩ := not_moving_iff.mp h
  exact ⟨hdriving, fun hr => by rw [hreleasing] at hr; cases hr⟩

theorem ReleasedBy.expire {out : CalibrationProtocol F × Bool} (h : ReleasedBy until' s)
    (hout : Expired s now out) : ReleasedBy until' out.1 := by
  by_cases hm : out.1.Moving
  · -- then the expiry did nothing
    rw [(hout.moving hm).1]
    exact h
  · exact .of_still hm

/-- A release in progress after a line was in progress before it, unless the line
renewed it or released a drive. -/
theorem CalibrationProtocol.Handled.releasing {brake : Bool} {r : Option Request}
    {out : CalibrationProtocol F × Bool × Option String} (h : Handled s now brake r out)
    (hr : out.1.releasing) :
    (s.releasing ∧ out.1.releaseUntilUs = s.releaseUntilUs) ∨
      (r = some .release ∧ s.session ∧ s.Moving) := by
  cases h with
  | refused | status | heartbeat | configure | measure | bound => exact .inl ⟨hr, rfl⟩
  | release hsession hmoving => exact .inr ⟨rfl, hsession, hmoving⟩
  | _ => cases hr

/-- A command keeps the backstop where it is. -/
theorem ReleasedBy.command {run : ProtocolRun F} {line : List Char}
    (h : ReleasedBy until' run.state) (hdrive : AcceptsNoDrive run (.command line now))
    (hrenew : RenewsNoRelease run (.command line now)) :
    ReleasedBy until' (calibrationCommand run.state line now).1 := by
  obtain ⟨expired, error, hexpired, handled, hacc⟩ := commanded_accepted run.state line now
  have hdriving := handled.driving
  have hreleasing := handled.releasing
  generalize calibrationCommand run.state line now = out at hdriving hreleasing
  have hafter : ReleasedBy until' expired.1 := h.expire hexpired
  constructor
  · by_contra hd
    rcases hdriving (by simpa using hd) with ⟨hbefore, -⟩ | ⟨-, -, herror, vx, wz, hline⟩
    · change expired.1.driving = true at hbefore
      rw [hafter.driving] at hbefore
      cases hbefore
    · change error = none at herror
      exact absurd (hdrive (.drive vx wz) (by rw [hacc, if_pos herror, hline]; rfl)) nofun
  · intro hr
    rcases hreleasing hr with ⟨hbefore, hkept⟩ | ⟨hline, hsession, hm⟩
    · rw [hkept]
      exact hafter.deadline hbefore
    · -- a release of a motion that outlasted the expiry: it renews one in progress
      exfalso
      obtain ⟨hsame, hcurrent⟩ := hexpired.moving hm
      change expired.1.session = true at hsession
      change expired.1.Moving at hm
      rw [hsame] at hsession hm
      rcases hm with hd | hr'
      · rw [h.driving] at hd
        cases hd
      · exact hrenew ⟨hline, hr', hsession, hcurrent⟩

theorem ReleasedBy.step {run : ProtocolRun F} {e : ProtocolEvent}
    (h : ReleasedBy until' run.state) (hdrive : AcceptsNoDrive run e)
    (hrenew : RenewsNoRelease run e) :
    ReleasedBy until' ((protocolMachine F).step run e).state := by
  cases e with
  | command line now => exact h.command hdrive hrenew
  | expire now => exact h.expire (expired run.state now)
  | disconnect => exact .of_still (calibrationStop_not_moving _)
  | stop reason => exact .of_still (calibrationStop_not_moving _)
  | fault reason => exact .of_still (calibrationFault_not_moving _)
  | observe ready atRest => exact ⟨h.driving, h.deadline⟩

/-- A call at or after the backstop leaves no release in progress. -/
theorem ReleasedBy.reached {run : ProtocolRun F} {e : ProtocolEvent}
    (h : ReleasedBy until' run.state) (hrenew : RenewsNoRelease run e)
    (he : (protocolMachine F).time e = some now) (hnow : until' ≤ now) :
    ((protocolMachine F).step run e).state.releasing = false := by
  have stopped {out : CalibrationProtocol F × Bool} (hout : Expired run.state now out) :
      ¬out.1.Moving := by
    intro hm
    obtain ⟨hsame, hcurrent⟩ := hout.moving hm
    rw [hsame] at hm
    rcases hm with hd | hr
    · rw [h.driving] at hd
      cases hd
    · refine hcurrent.releasing hr ?_
      show run.state.releaseUntilUs ≤ now
      rw [h.deadline hr]
      exact hnow
  cases e with
  | command line now' =>
    cases he
    obtain ⟨expired, error, hexpired, handled, hacc⟩ := commanded_accepted run.state line now
    show (calibrationCommand run.state line now).1.releasing = false
    by_contra hr
    rcases handled.releasing (by simpa using hr) with ⟨hbefore, -⟩ | ⟨-, -, hm⟩
    · exact stopped hexpired (.inr hbefore)
    · exact stopped hexpired hm
  | expire now' =>
    cases he
    exact (not_moving_iff.mp (stopped (expired run.state now))).2
  | _ => cases he

/-- An accepted release of a drive starts a two-second backstop. -/
theorem releasedBy_of_accepted {line : List Char} {t : UInt64}
    (h : accepted s line t = some .release)
    (hr : (calibrationCommand s line t).1.releasing) :
    ReleasedBy (t + calibrationReleaseUs) (calibrationCommand s line t).1 := by
  obtain ⟨-, expired, s', brake, -, hs', handled⟩ := handled_of_accepted h
  rw [hs'] at hr ⊢
  cases handled with
  | release => exact ⟨rfl, fun _ => rfl⟩
  | idleRelease => cases hr
  | configure _ _ _ hp => cases hp

/-- After a release of a drive accepted at `t`, without a drive accepted later: if
no further release renews the backstop, every call from two seconds after `t` on
leaves no release in progress. -/
theorem release_backstop_holds (defaults : CalibrationParameters F)
    (pre win : List ProtocolEvent) (line : List Char) (t : UInt64)
    (hrelease : accepted ((protocolMachine F).run (.boot defaults) pre).state line t =
      some .release)
    (hreleasing : ((protocolMachine F).run (.boot defaults)
      (pre ++ [.command line t])).state.releasing)
    (hdrive : (protocolMachine F).Always AcceptsNoDrive
      ((protocolMachine F).run (.boot defaults) (pre ++ [.command line t])) win)
    (hrenew : (protocolMachine F).Always RenewsNoRelease
      ((protocolMachine F).run (.boot defaults) (pre ++ [.command line t])) win) :
    (protocolMachine F).Always (ReleaseEndsBy (t.toNat + 2000000))
      ((protocolMachine F).run (.boot defaults) (pre ++ [.command line t])) win := by
  rw [Machine.run_append] at hreleasing hdrive hrenew ⊢
  refine Machine.always_of_guarded
    (I := fun run : ProtocolRun F => ReleasedBy (t + calibrationReleaseUs) run.state)
    (fun run e h hg => h.step hg.1 hg.2) ?_ (releasedBy_of_accepted hrelease hreleasing)
    (Machine.always_and.mpr ⟨hdrive, hrenew⟩)
  intro run e h hg now he hnow
  exact h.reached hg.2 he (Clock.add_le_of_toNat_add_le hnow)

end Backstop

/-- A drive about to be released, its session renewed at 400 ms. -/
def releaseEvents : List ProtocolEvent :=
  drivingEvents ++ [.command "23 drive .1 .3".toList 300000, .command "24 heartbeat".toList 400000]

/-- The heartbeats that keep a session open until 2.5 s. -/
def heartbeatEvents : List ProtocolEvent :=
  [.command "27 heartbeat".toList 800000, .command "28 heartbeat".toList 1200000,
    .command "29 heartbeat".toList 1600000, .command "30 heartbeat".toList 2000000,
    .command "31 heartbeat".toList 2400000]

/-- Heartbeats do not delay the backstop of a release at 500 ms. -/
theorem release_backstop_holds_kept :
    let run := (protocolMachine ℚ).run (.boot testParameters)
      (releaseEvents ++ [.command "26 release".toList 500000] ++ heartbeatEvents)
    run.state.releasing = true ∧ ReleaseEndsBy 2500000 run (.expire 2500000) := by
  have h := release_backstop_holds testParameters releaseEvents
    (heartbeatEvents ++ [.expire 2500000]) "26 release".toList 500000
    (by decide +kernel) (by decide +kernel) (by decide +kernel) (by decide +kernel)
  intro run
  refine ⟨by decide +kernel, ?_⟩
  show ReleaseEndsBy 2500000 ((protocolMachine ℚ).run _ (_ ++ heartbeatEvents)) _
  rw [Machine.run_append]
  exact h.at

/-- The same release, renewed at 1.2 s, is still in progress at 2.5 s. -/
theorem release_backstop_renewed :
    let win := heartbeatEvents.insertIdx 2 (.command "32 release".toList 1200000) ++
      [.expire 2500000]
    (protocolMachine ℚ).Timely 0 (releaseEvents ++ .command "26 release".toList 500000 :: win) ∧
      accepted ((protocolMachine ℚ).run (.boot testParameters) releaseEvents).state
        "26 release".toList 500000 = some .release ∧
      (protocolMachine ℚ).Always AcceptsNoDrive ((protocolMachine ℚ).run (.boot testParameters)
        (releaseEvents ++ [.command "26 release".toList 500000])) win ∧
      ¬(protocolMachine ℚ).Always (ReleaseEndsBy (500000 + 2000000))
        ((protocolMachine ℚ).run (.boot testParameters)
          (releaseEvents ++ [.command "26 release".toList 500000])) win := by
  refine ⟨by decide +kernel, by decide +kernel, by decide +kernel, ?_⟩
  intro h
  have hend := (Machine.always_append.mp h).2.1 2500000 rfl (by decide +kernel)
  revert hend
  decide +kernel
