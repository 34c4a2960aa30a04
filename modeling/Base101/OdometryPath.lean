/-
What the odometry integrates (`odometry.c`), over the reals.

The state of the odometry is a pose and the last measurement that can start an interval.
Two successive valid measurements of increasing times, close enough, are an arc of
`PlanarPose`; everything else only moves on the last measurement.

* `odometry_integrates` — from the zero state, after any updates and resets, the pose is
  the sum over the intervals since the last reset, with the yaw wrapped;
* `odometry_returns` — a drive and then the same drive reversed ends where it started.
-/
import Base101.Odometry
import Base101.PlanarPose
import Base101.Successive
import Base101.Machine

open Double

/-! ### One update -/

/-- The yaw is wrapped to the half-open turn. -/
theorem ieeeRemainder_two_pi (x : ℝ) :
    -Real.pi ≤ ieeeRemainder x (2 * Real.pi) ∧ ieeeRemainder x (2 * Real.pi) ≤ Real.pi ∧
      ((ieeeRemainder x (2 * Real.pi) : ℝ) : Real.Angle) = x := by
  have hpi := Real.pi_pos
  set q := x / (2 * Real.pi) with hq
  have hx : x = q * (2 * Real.pi) := by
    rw [hq]
    field_simp
  set n := (if q + 1 / 2 = (⌊q + 1 / 2⌋ : ℝ) ∧ ⌊q + 1 / 2⌋ % 2 ≠ 0 then ⌊q + 1 / 2⌋ - 1
    else ⌊q + 1 / 2⌋) with hn
  have hremainder : ieeeRemainder x (2 * Real.pi) = x - n * (2 * Real.pi) := rfl
  -- the nearest integer is at most half away
  have hnear : (n : ℝ) - 1 / 2 ≤ q ∧ q ≤ n + 1 / 2 := by
    have hfloor := Int.floor_le (q + 1 / 2)
    have hlt := Int.lt_floor_add_one (q + 1 / 2)
    rw [hn]
    split
    next htie =>
      push_cast
      constructor
      · linarith [htie.1]
      · linarith [htie.1]
    next => exact ⟨by linarith, by linarith⟩
  refine ⟨?_, ?_, ?_⟩
  · rw [hremainder, hx]
    nlinarith [hnear.1]
  · rw [hremainder, hx]
    nlinarith [hnear.2]
  · rw [hremainder, Real.Angle.angle_eq_iff_two_pi_dvd_sub]
    refine ⟨-n, ?_⟩
    push_cast
    ring

/-- The pose, with the yaw as an angle. -/
noncomputable def Odometry.pose (o : Odometry ℝ) : PlanarPose := ⟨o.x, o.y, (o.yaw : ℝ)⟩

/-- The yaw is in the half-open turn. -/
def Odometry.Wrapped (o : Odometry ℝ) : Prop := o.yaw ∈ Set.Ioc (-Real.pi) Real.pi

theorem odometryAdvance_wrapped (o : Odometry ℝ) (vx wz dt : ℝ) :
    (odometryAdvance o vx wz dt).Wrapped := by
  obtain ⟨hlow, hhigh, -⟩ := ieeeRemainder_two_pi (o.yaw + (o.wz + wz) * 0.5 * dt)
  have hpi := Real.pi_pos
  show (if ieeeRemainder (o.yaw + (o.wz + wz) * 0.5 * dt) (2 * Real.pi) ≤ -Real.pi then
      ieeeRemainder (o.yaw + (o.wz + wz) * 0.5 * dt) (2 * Real.pi) + 2 * Real.pi
    else ieeeRemainder (o.yaw + (o.wz + wz) * 0.5 * dt) (2 * Real.pi)) ∈
    Set.Ioc (-Real.pi) Real.pi
  split
  next hle => exact ⟨by linarith, by linarith⟩
  next hle => exact ⟨not_le.mp hle, hhigh⟩

/-- One step of the integration moves the pose along an arc. -/
theorem odometryAdvance_pose (o : Odometry ℝ) (vx wz dt : ℝ) :
    (odometryAdvance o vx wz dt).pose =
      o.pose.move ⟨(o.vx + vx) / 2 * dt, (o.wz + wz) / 2 * dt⟩ := by
  have hlit : (0.5 : ℝ) = 1 / 2 := by norm_num
  have hhalf : ∀ x y : ℝ, (x + y) * 0.5 * dt = (x + y) / 2 * dt := by
    intro x y
    rw [hlit]
    ring
  have hmid : ∀ turn : ℝ, ((o.yaw + turn * 0.5 : ℝ) : Real.Angle) =
      (o.yaw : ℝ) + (turn / 2 : ℝ) := by
    intro turn
    rw [← Real.Angle.coe_add, hlit]
    ring_nf
  ext
  · show o.x + (o.vx + vx) * 0.5 * dt * Real.cos (o.yaw + (o.wz + wz) * 0.5 * dt * 0.5) = _
    rw [← Real.Angle.cos_coe, hmid, hhalf, hhalf]
    rfl
  · show o.y + (o.vx + vx) * 0.5 * dt * Real.sin (o.yaw + (o.wz + wz) * 0.5 * dt * 0.5) = _
    rw [← Real.Angle.sin_coe, hmid, hhalf, hhalf]
    rfl
  · obtain ⟨-, -, hangle⟩ := ieeeRemainder_two_pi (o.yaw + (o.wz + wz) * 0.5 * dt)
    show ((if ieeeRemainder (o.yaw + (o.wz + wz) * 0.5 * dt) (2 * Real.pi) ≤ -Real.pi then
        ieeeRemainder (o.yaw + (o.wz + wz) * 0.5 * dt) (2 * Real.pi) + 2 * Real.pi
      else ieeeRemainder (o.yaw + (o.wz + wz) * 0.5 * dt) (2 * Real.pi) : ℝ) : Real.Angle) =
      (o.yaw : Real.Angle) + (((o.wz + wz) / 2 * dt : ℝ) : Real.Angle)
    rw [← Real.Angle.coe_add, ← hhalf]
    split
    · rw [Real.Angle.coe_add, Real.Angle.coe_two_pi, add_zero, hangle]
    · exact hangle

/-! ### Measurements and intervals -/

/-- The measurement of one `odometry_update`. -/
structure OdometrySample where
  nowUs : UInt64
  vx : ℝ
  wz : ℝ
  valid : Bool

/-- Two successive updates that make an interval. -/
def Integrable (maxDtUs : UInt64) (pair : OdometrySample × OdometrySample) : Prop :=
  pair.1.valid = true ∧ pair.2.valid = true ∧ pair.1.nowUs.toNat < pair.2.nowUs.toNat ∧
    pair.2.nowUs.toNat - pair.1.nowUs.toNat ≤ maxDtUs.toNat

instance (maxDtUs : UInt64) : DecidablePred (Integrable maxDtUs) :=
  fun _ => inferInstanceAs (Decidable (_ ∧ _ ∧ _ ∧ _))

/-- The time between two measurements, in microseconds. -/
def gap (pair : OdometrySample × OdometrySample) : ℤ :=
  pair.2.nowUs.toNat - pair.1.nowUs.toNat

/-- The arc of an interval, at the mean of its velocities. -/
noncomputable def intervalArc (pair : OdometrySample × OdometrySample) : Arc where
  distance := (pair.1.vx + pair.2.vx) / 2 * (gap pair / 1000000)
  turn := (pair.1.wz + pair.2.wz) / 2 * (gap pair / 1000000)

/-- The arcs of the intervals between the measurements. -/
noncomputable def intervalArcs (maxDtUs : UInt64) (samples : List OdometrySample) : List Arc :=
  (samples.successive.filter (Integrable maxDtUs)).map intervalArc

/-- A measurement that makes an interval with the last one adds its arc. -/
theorem intervalArcs_add {maxDtUs : UInt64} {samples : List OdometrySample}
    {last next : OdometrySample} (hlast : samples.getLast? = some last)
    (h : Integrable maxDtUs (last, next)) :
    intervalArcs maxDtUs (samples ++ [next]) =
      intervalArcs maxDtUs samples ++ [intervalArc (last, next)] := by
  rw [intervalArcs, List.filter_successive_add hlast h, List.map_append]
  rfl

/-- One that makes none adds nothing. -/
theorem intervalArcs_skip {maxDtUs : UInt64} {samples : List OdometrySample}
    {next : OdometrySample}
    (h : ∀ last, samples.getLast? = some last → ¬Integrable maxDtUs (last, next)) :
    intervalArcs maxDtUs (samples ++ [next]) = intervalArcs maxDtUs samples := by
  rw [intervalArcs, List.filter_successive_skip h]
  rfl

/-! ### The invariant of the integration -/

/-- After the measurements, from the start pose: the odometry is at the end of their
arcs, and remembers the last measurement if it can start an interval. -/
structure Integrated (maxDtUs : UInt64) (start : PlanarPose) (samples : List OdometrySample)
    (o : Odometry ℝ) : Prop where
  wrapped : o.Wrapped
  pose : o.pose = start.moves (intervalArcs maxDtUs samples)
  tracking : o.tracking = true ↔ ∃ s, samples.getLast? = some s ∧ s.valid = true
  last : ∀ s, samples.getLast? = some s → s.valid = true →
    o.vx = s.vx ∧ o.wz = s.wz ∧ o.sampleUs = s.nowUs

section Step

variable {maxDtUs : UInt64} {start : PlanarPose} {samples : List OdometrySample} {o : Odometry ℝ}

/-- `odometry_update` with the arguments in a record. -/
noncomputable def odometrySample (maxDtUs : UInt64) (o : Odometry ℝ) (s : OdometrySample) :
    Odometry ℝ :=
  odometryUpdate o s.nowUs s.vx s.wz s.valid maxDtUs

/-- The state takes over a valid measurement, after the interval if there is one. -/
theorem odometrySample_valid {s : OdometrySample} (hs : s.valid = true) :
    odometrySample maxDtUs o s =
      { (if odometryTracks o s.nowUs maxDtUs then
          odometryAdvance o s.vx s.wz (((s.nowUs - o.sampleUs).toNat : ℝ) / 1000000.0) else o) with
        vx := s.vx, wz := s.wz, sampleUs := s.nowUs, valid := true, tracking := true } := by
  rw [odometrySample, odometryUpdate, hs]
  rfl

/-- The code tests the interval that ends in the measurement. -/
theorem odometryTracks_iff {last s : OdometrySample} (hlast : last.valid = true)
    (hs : s.valid = true) (htracking : o.tracking = true) (hsample : o.sampleUs = last.nowUs) :
    odometryTracks o s.nowUs maxDtUs = true ↔ Integrable maxDtUs (last, s) := by
  have hgap : last.nowUs.toNat < s.nowUs.toNat →
      (s.nowUs - last.nowUs).toNat = s.nowUs.toNat - last.nowUs.toNat := by
    intro hlt
    exact UInt64.toNat_sub_of_le _ _ (UInt64.le_iff_toNat_le.mpr hlt.le)
  rw [odometryTracks, htracking, hsample, Integrable]
  simp only [Bool.true_and, Bool.and_eq_true, decide_eq_true_eq, UInt64.lt_iff_toNat_lt,
    UInt64.le_iff_toNat_le, hlast, hs, true_and]
  constructor
  · rintro ⟨hlt, hle⟩
    exact ⟨hlt, (hgap hlt) ▸ hle⟩
  · rintro ⟨hlt, hle⟩
    exact ⟨hlt, (hgap hlt).symm ▸ hle⟩

/-- What the invariant says of a state that holds the last measurement. -/
theorem Integrated.of_last {s : OdometrySample} {o' : Odometry ℝ} (hwrapped : o'.Wrapped)
    (hpose : o'.pose = start.moves (intervalArcs maxDtUs (samples ++ [s])))
    (htracking : o'.tracking = s.valid)
    (hlast : s.valid = true → o'.vx = s.vx ∧ o'.wz = s.wz ∧ o'.sampleUs = s.nowUs) :
    Integrated maxDtUs start (samples ++ [s]) o' where
  wrapped := hwrapped
  pose := hpose
  tracking := by
    rw [htracking, List.getLast?_concat]
    simp
  last := by
    intro s' hs' hvalid
    rw [List.getLast?_concat] at hs'
    obtain rfl := Option.some.inj hs'
    exact hlast hvalid

/-- Every update integrates exactly the interval that ends in it. -/
theorem Integrated.sample (h : Integrated maxDtUs start samples o) (s : OdometrySample) :
    Integrated maxDtUs start (samples ++ [s]) (odometrySample maxDtUs o s) := by
  by_cases hs : s.valid = true
  · rw [odometrySample_valid hs]
    by_cases htracks : odometryTracks o s.nowUs maxDtUs = true
    · -- the last measurement was valid, and is the one in the state
      have htracking : o.tracking = true := by
        rw [odometryTracks, Bool.and_eq_true, Bool.and_eq_true] at htracks
        exact htracks.1.1
      obtain ⟨last, hlast, hvalid⟩ := h.tracking.mp htracking
      obtain ⟨hvx, hwz, hsample⟩ := h.last last hlast hvalid
      have hinterval := (odometryTracks_iff hvalid hs htracking hsample).mp htracks
      have hdt : ((s.nowUs - o.sampleUs).toNat : ℝ) / 1000000.0 = gap (last, s) / 1000000 := by
        have hle : last.nowUs ≤ s.nowUs := UInt64.le_iff_toNat_le.mpr hinterval.2.2.1.le
        rw [hsample, UInt64.toNat_sub_of_le _ _ hle, Nat.cast_sub hinterval.2.2.1.le, gap]
        push_cast
        norm_num
      rw [if_pos htracks]
      refine Integrated.of_last (odometryAdvance_wrapped o s.vx s.wz _) ?_ hs.symm
        fun _ => ⟨rfl, rfl, rfl⟩
      show (odometryAdvance o s.vx s.wz _).pose = _
      rw [odometryAdvance_pose, h.pose, intervalArcs_add hlast hinterval, PlanarPose.moves_concat,
        hdt, hvx, hwz]
      rfl
    · rw [if_neg htracks]
      refine Integrated.of_last h.wrapped ?_ hs.symm fun _ => ⟨rfl, rfl, rfl⟩
      show o.pose = _
      rw [intervalArcs_skip, h.pose]
      intro last hlast hinterval
      have hvalid := hinterval.1
      have htracking := h.tracking.mpr ⟨last, hlast, hvalid⟩
      exact htracks ((odometryTracks_iff hvalid hs htracking (h.last last hlast hvalid).2.2).mpr
        hinterval)
  · have hinvalid : odometrySample maxDtUs o s = { o with valid := false, tracking := false } := by
      rw [odometrySample, odometryUpdate, Bool.eq_false_iff.mpr hs]
      rfl
    rw [hinvalid]
    refine Integrated.of_last h.wrapped ?_ (Bool.eq_false_iff.mpr hs).symm
      fun hvalid => absurd hvalid hs
    show o.pose = _
    rw [intervalArcs_skip, h.pose]
    exact fun _ _ hinterval => hs hinterval.2.1

theorem Integrated.foldl (h : Integrated maxDtUs start samples o) (more : List OdometrySample) :
    Integrated maxDtUs start (samples ++ more) (more.foldl (odometrySample maxDtUs) o) := by
  induction more generalizing samples o with
  | nil => rwa [List.append_nil]
  | cons s more ih =>
    rw [← List.singleton_append, ← List.append_assoc]
    exact ih (h.sample s)

/-- Any state can be taken for the start. -/
theorem integrated_of_wrapped (maxDtUs : UInt64) (h : o.Wrapped) :
    Integrated maxDtUs o.pose (if o.tracking then [⟨o.sampleUs, o.vx, o.wz, true⟩] else []) o := by
  by_cases htracking : o.tracking = true
  · rw [if_pos htracking, ← List.nil_append [_]]
    exact Integrated.of_last h rfl htracking fun _ => ⟨rfl, rfl, rfl⟩
  · rw [if_neg htracking]
    refine ⟨h, rfl, ?_, ?_⟩
    · simp [htracking]
    · simp

end Step

/-! ### Runs -/

/-- A call of the odometry. -/
inductive OdometryEvent
  | update (s : OdometrySample)
  | resetPose

noncomputable def odometryMachine (maxDtUs : UInt64) : Machine (Odometry ℝ) OdometryEvent where
  step o
    | .update s => odometrySample maxDtUs o s
    | .resetPose => odometryResetPose o
  time _ := none

/-- The updates since the last reset, in order. -/
def sinceReset (events : List OdometryEvent) : List OdometrySample :=
  events.foldl (fun samples event =>
    match event with
    | .update s => samples ++ [s]
    | .resetPose => []) []

/-- A state at the origin that holds no measurement. -/
theorem integrated_origin {maxDtUs : UInt64} {o : Odometry ℝ} (hx : o.x = 0) (hy : o.y = 0)
    (hyaw : o.yaw = 0) (htracking : o.tracking = false) :
    Integrated maxDtUs PlanarPose.origin [] o where
  wrapped := by
    rw [Odometry.Wrapped, hyaw]
    exact ⟨by linarith [Real.pi_pos], Real.pi_pos.le⟩
  pose := by
    rw [Odometry.pose, hx, hy, hyaw]
    rfl
  tracking := by simp [htracking]
  last := by simp

/-- The run lemma: the invariant, for the updates since the last reset. -/
theorem integrated_run (maxDtUs : UInt64) (events : List OdometryEvent) :
    Integrated maxDtUs PlanarPose.origin (sinceReset events)
      ((odometryMachine maxDtUs).run Odometry.zero events) := by
  induction events using List.reverseRecOn with
  | nil => exact integrated_origin rfl rfl rfl rfl
  | append_singleton events event ih =>
    rw [Machine.run_append, sinceReset, List.foldl_append]
    cases event with
    | update s => exact ih.sample s
    | resetPose => exact integrated_origin rfl rfl rfl rfl

open Arc in
/-- **The odometry integrates exactly the valid intervals.**  After any updates and
resets the yaw is wrapped and congruent to the sum of the turns since the last reset, and
the position is the sum of the distances, each at the unwrapped heading in its middle. -/
theorem odometry_integrates (maxDtUs : UInt64) (events : List OdometryEvent) :
    let o := (odometryMachine maxDtUs).run Odometry.zero events
    let arcs := intervalArcs maxDtUs (sinceReset events)
    o.yaw ∈ Set.Ioc (-Real.pi) Real.pi ∧
    (∃ k : ℤ, o.yaw = headingSum arcs + k * (2 * Real.pi)) ∧
    o.x = ∑ i ∈ Finset.range arcs.length,
      (arcs.getD i still).distance * Real.cos (midHeading arcs i) ∧
    o.y = ∑ i ∈ Finset.range arcs.length,
      (arcs.getD i still).distance * Real.sin (midHeading arcs i) := by
  intro o arcs
  have hrun := integrated_run maxDtUs events
  obtain ⟨hheading, hx, hy⟩ := PlanarPose.moves_origin arcs
  have hpose : o.pose = PlanarPose.origin.moves arcs := hrun.pose
  rw [← hpose] at hheading hx hy
  refine ⟨hrun.wrapped, ?_, hx, hy⟩
  obtain ⟨k, hk⟩ := Real.Angle.angle_eq_iff_two_pi_dvd_sub.mp hheading
  exact ⟨k, by linarith⟩

/-! ### There and back -/

/-- The velocities of a measurement. -/
def OdometrySample.velocity (s : OdometrySample) : ℝ × ℝ := (s.vx, s.wz)

/-- The times between successive measurements. -/
def gaps (samples : List OdometrySample) : List ℤ := samples.successive.map gap

/-- The arc between two velocities, held for the time. -/
noncomputable def meanArc (pair : (ℝ × ℝ) × (ℝ × ℝ)) (gap : ℤ) : Arc where
  distance := (pair.1.1 + pair.2.1) / 2 * (gap / 1000000)
  turn := (pair.1.2 + pair.2.2) / 2 * (gap / 1000000)

/-- If every pair is an interval, the arcs are determined by the velocities and the gaps. -/
theorem intervalArcs_eq {maxDtUs : UInt64} {samples : List OdometrySample}
    (h : ∀ pair ∈ samples.successive, Integrable maxDtUs pair) :
    intervalArcs maxDtUs samples =
      List.zipWith meanArc (samples.map OdometrySample.velocity).successive (gaps samples) := by
  have hall : samples.successive.filter (Integrable maxDtUs) = samples.successive :=
    List.filter_eq_self.mpr fun pair hpair => by simpa using h pair hpair
  rw [intervalArcs, hall, List.successive_map, gaps, List.zipWith_map, List.zipWith_self]
  rfl

/-- The arcs of two parts, if every pair is an interval. -/
theorem intervalArcs_append {maxDtUs : UInt64} {earlier later : List OdometrySample}
    {last next : OdometrySample}
    (h : ∀ pair ∈ (earlier ++ last :: next :: later).successive, Integrable maxDtUs pair) :
    intervalArcs maxDtUs (earlier ++ last :: next :: later) =
      intervalArcs maxDtUs (earlier ++ [last]) ++
        intervalArc (last, next) :: intervalArcs maxDtUs (next :: later) := by
  rw [List.successive_append] at h
  rw [intervalArcs, List.successive_append, List.filter_append,
    List.filter_cons_of_pos (by simpa using h (last, next) (by simp)), List.map_append,
    List.map_cons]
  rfl

/-- Valid measurements at allowed gaps are all intervals. -/
theorem integrable_of_gaps {maxDtUs : UInt64} {samples : List OdometrySample}
    (hvalid : ∀ s ∈ samples, s.valid = true)
    (hgaps : ∀ g ∈ gaps samples, 0 < g ∧ g ≤ maxDtUs.toNat) :
    ∀ pair ∈ samples.successive, Integrable maxDtUs pair := by
  rintro ⟨a, b⟩ hpair
  obtain ⟨ha, hb⟩ := List.of_mem_zip hpair
  obtain ⟨hpos, hle⟩ : 0 < (b.nowUs.toNat : ℤ) - a.nowUs.toNat ∧
      (b.nowUs.toNat : ℤ) - a.nowUs.toNat ≤ maxDtUs.toNat :=
    hgaps (gap (a, b)) (List.mem_map_of_mem hpair)
  refine ⟨hvalid a ha, hvalid b (List.mem_of_mem_tail hb), ?_, ?_⟩
  · show a.nowUs.toNat < b.nowUs.toNat
    omega
  · show b.nowUs.toNat - a.nowUs.toNat ≤ maxDtUs.toNat
    omega

/-- Opposite velocities in the opposite order, at the gaps in the opposite order, are the
arcs back. -/
theorem zipWith_meanArc_back (velocities : List (ℝ × ℝ)) (times : List ℤ)
    (hlength : velocities.successive.length = times.length) :
    List.zipWith meanArc (velocities.reverse.map Neg.neg).successive times.reverse =
      (List.zipWith meanArc velocities.successive times).reverse.map Arc.back := by
  have hswap : ∀ pair time, meanArc (Prod.map Neg.neg Neg.neg pair.swap) time =
      (meanArc pair time).back := by
    rintro ⟨⟨v, w⟩, ⟨v', w'⟩⟩ time
    ext
    · show (-v' + -v) / 2 * (time / 1000000) = -((v + v') / 2 * (time / 1000000))
      ring
    · show (-w' + -w) / 2 * (time / 1000000) = -((w + w') / 2 * (time / 1000000))
      ring
  rw [List.successive_map, List.successive_reverse, List.map_map, List.zipWith_map_left,
    ← List.reverse_zipWith hlength, List.map_reverse, List.map_zipWith]
  simp only [Function.comp_apply, hswap]

/-- **There and back.**  From any state with a wrapped yaw: after a valid measurement,
more of them at allowed gaps, and then the opposite velocities in the opposite order at
the same gaps, the pose is the one after the first measurement. -/
theorem odometry_returns (maxDtUs : UInt64) (start : {o : Odometry ℝ // o.Wrapped})
    (first : OdometrySample) (out back : List OdometrySample)
    (hvalid : ∀ s ∈ first :: out ++ back, s.valid = true)
    (hgaps : ∀ g ∈ gaps (first :: out ++ back), 0 < g ∧ g ≤ maxDtUs.toNat)
    (hvelocities : back.map OdometrySample.velocity =
      ((first :: out).map OdometrySample.velocity).reverse.map Neg.neg)
    (hreturn : gaps back = (gaps (first :: out)).reverse) :
    let o := odometrySample maxDtUs start first
    let o' := (out ++ back).foldl (odometrySample maxDtUs) o
    o'.x = o.x ∧ o'.y = o.y ∧ o'.yaw = o.yaw := by
  intro o o'
  have hfirst : first.valid = true := hvalid first (by simp)
  -- the first measurement starts the path
  have hwrapped : o.Wrapped := ((integrated_of_wrapped maxDtUs start.2).sample first).wrapped
  have ho : Integrated maxDtUs o.pose ([] ++ [first]) o := by
    refine Integrated.of_last hwrapped rfl ?_ fun _ => ?_
    · show (odometrySample maxDtUs start first).tracking = _
      rw [odometrySample_valid hfirst, hfirst]
    · have hstate : o = odometrySample maxDtUs start first := rfl
      rw [hstate, odometrySample_valid hfirst]
      exact ⟨rfl, rfl, rfl⟩
  have ho' : Integrated maxDtUs o.pose (first :: out ++ back) o' := ho.foldl (out ++ back)
  have hall := integrable_of_gaps hvalid hgaps
  -- the path turns around on the spot
  obtain ⟨earlier, last, hout⟩ : ∃ earlier last, first :: out = earlier ++ [last] :=
    ⟨_, _, (List.dropLast_append_getLast (List.cons_ne_nil first out)).symm⟩
  obtain ⟨next, later, rfl⟩ : ∃ next later, back = next :: later := by
    cases back with
    | nil =>
      have hlength := congrArg List.length hvelocities
      simp at hlength
    | cons next later => exact ⟨next, later, rfl⟩
  rw [hout, List.append_assoc, List.singleton_append] at ho' hall
  rw [hout] at hvelocities hreturn
  have happend := intervalArcs_append hall
  rw [List.successive_append] at hall
  have harcs : intervalArcs maxDtUs (next :: later) =
      (intervalArcs maxDtUs (earlier ++ [last])).reverse.map Arc.back := by
    rw [intervalArcs_eq fun pair hpair => hall pair (by simp [hpair]),
      intervalArcs_eq fun pair hpair => hall pair (by simp [hpair]), hvelocities, hreturn]
    refine zipWith_meanArc_back _ _ ?_
    rw [gaps, List.successive_map, List.length_map, List.length_map]
  have hstill : intervalArc (last, next) = Arc.still := by
    have hnext : next.velocity = -last.velocity := by
      have hhead := congrArg List.head? hvelocities
      simpa using hhead
    obtain ⟨hvx, hwz⟩ := Prod.mk.inj hnext
    ext
    · show (last.vx + next.vx) / 2 * _ = 0
      rw [hvx]
      simp [OdometrySample.velocity]
    · show (last.wz + next.wz) / 2 * _ = 0
      rw [hwz]
      simp [OdometrySample.velocity]
  have hpose : o'.pose = o.pose := by
    rw [ho'.pose, happend, hstill, harcs, PlanarPose.moves_append]
    show ((o.pose.moves _).move Arc.still).moves _ = _
    rw [PlanarPose.move_still, PlanarPose.moves_back]
  obtain ⟨hx, hy, hyaw⟩ := PlanarPose.mk.inj hpose
  refine ⟨hx, hy, ?_⟩
  rw [← Real.Angle.toReal_coe_eq_self_iff_mem_Ioc.mpr ho'.wrapped, hyaw,
    Real.Angle.toReal_coe_eq_self_iff_mem_Ioc.mpr hwrapped]

/-- The zero state, as a start. -/
noncomputable def odometryStart : {o : Odometry ℝ // o.Wrapped} :=
  ⟨Odometry.zero, (integrated_run 0 []).wrapped⟩

/-- One curved interval, and back after 6 ms. -/
theorem odometry_returns_curve :
    let o := odometrySample 50000 odometryStart ⟨0, 1, 2, true⟩
    let o' := [⟨5000, 3, -1, true⟩, ⟨11000, -3, 1, true⟩, ⟨16000, -1, -2, true⟩].foldl
      (odometrySample 50000) o
    o'.x = o.x ∧ o'.y = o.y ∧ o'.yaw = o.yaw := by
  refine odometry_returns 50000 odometryStart ⟨0, 1, 2, true⟩ [⟨5000, 3, -1, true⟩]
    [⟨11000, -3, 1, true⟩, ⟨16000, -1, -2, true⟩] ?_ ?_ ?_ ?_
  · simp
  · have hgaps : gaps [⟨0, 1, 2, true⟩, ⟨5000, 3, -1, true⟩, ⟨11000, -3, 1, true⟩,
        ⟨16000, -1, -2, true⟩] = [5000, 6000, 5000] := rfl
    show ∀ g ∈ gaps [⟨0, 1, 2, true⟩, ⟨5000, 3, -1, true⟩, ⟨11000, -3, 1, true⟩,
      ⟨16000, -1, -2, true⟩], 0 < g ∧ g ≤ 50000
    rw [hgaps]
    simp
  · simp [OdometrySample.velocity]
  · rfl
