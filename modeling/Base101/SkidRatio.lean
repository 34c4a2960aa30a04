/-
The skid ratio of a spin trial (`calibration_metrics.c`, `analyze` of
`tools/calibration/trials.py`), over an exact field.

The metrics integrate the gyro and the encoder over the same intervals, by the same
rule, so a constant ratio between their samples is the ratio of their integrals; and the
ratio of the integrals over the steady intervals is what `analyze` returns.

* `MetricsSums` — what the sums of a measurement are sums over;
* `skid_ratio_recovered` — a ratio that every valid sample has is recovered.
-/
import Base101.CalibrationMetrics
import Base101.CalibrationTrials
import Base101.Successive

open Double

/-! ### The analysis of a trial -/

section Analysis

variable {F : Type} [Double F]

/-- The metrics of a reply, as `get` finds them. -/
structure TrialMetrics (F : Type) where
  samples : Option ℕ
  gaps : Option ℕ
  knocks : Option ℕ
  gyroYaw : Option F
  encoderYaw : Option F
  steadyGyro : Option F
  steadyEncoder : Option F
  steadyS : Option F
  accelPeak : Option F
  trackingRms : Option F
  responseS : Option F
  stopDistance : Option F
  stopS : Option F

/-- The last second of a stage. -/
structure Plateau (F : Type) where
  vx : F
  samples : ℕ
  meanRpm : List F

/-- A finished trial; no surface is the empty one. -/
structure TrialRun (F : Type) where
  metrics : TrialMetrics F
  complete : Bool
  reason : Option String
  recipe : String
  plateaus : List (Plateau F)
  surface : String

/-- The result of `analyze`. -/
structure Analysis (F : Type) where
  reasons : List String
  kIcr : Option F
  knocks : Option ℕ
  accelPeak : Option F
  trackingRms : Option F
  responseS : Option F
  stopDistance : Option F
  stopS : Option F
  minimumSpeed : Option F

/-- `valid`. -/
def Analysis.valid (a : Analysis F) : Bool := a.reasons.isEmpty

/-- `signs` of the recipes, which only the direction checks have. -/
def recipeSigns : String → Option (List ℤ)
  | "forward" => some [1, 1, 1, 1]
  | "backward" => some [-1, -1, -1, -1]
  | "left" => some [-1, 1, -1, 1]
  | "right" => some [1, -1, 1, -1]
  | _ => none

/-- A reason that applies. -/
def reasonIf (applies : Bool) (reason : String) : List String := if applies then [reason] else []

/-- The ratio of a step-1 recipe, and why it may not do. -/
def analyzeRatio (m : TrialMetrics F) (wz : F) : Option F × List String :=
  let g := m.steadyGyro.getD 0
  let e := m.steadyEncoder.getD 0
  let ratio := if 0.001 < fabs g then some (e / g) else none
  (ratio,
    reasonIf (m.steadyS.getD 0 < 2.0 || fabs g < 0.3) "insufficient steady rotation" ++
    reasonIf (g * e ≤ 0 || g * wz ≤ 0) "encoder / gyro direction mismatch" ++
    reasonIf (!ratio.any fun ratio => 1 ≤ ratio && ratio ≤ 5.0)
      "skid ratio outside supported range")

/-- Why a verification turn may not do. -/
def analyzeTurn (m : TrialMetrics F) : List String :=
  let g := m.gyroYaw.getD 0
  let e := m.encoderYaw.getD 0
  reasonIf (g < 2.0 * pi * 0.9 || 2.0 * pi * 1.1 < g) "turn did not finish within 10% of 360°" ++
  reasonIf (e * g ≤ 0) "encoder / gyro direction mismatch"

/-- The wheels turned the wrong way, or hardly at all. -/
def signsMismatch (plateaus : List (Plateau F)) (signs : List ℤ) : Bool :=
  let means := (plateaus.getLast?.map Plateau.meanRpm).getD []
  means.length != 4 || (means.zip signs).any fun (v, s) => v * (s : F) ≤ 1

/-- The speed of the first stage whose wheels all turned. -/
def minimumSpeed (plateaus : List (Plateau F)) : Option F :=
  (plateaus.find? fun p => 3 ≤ p.samples && p.meanRpm.all fun v => 1 < v).map fun p => fabs p.vx

/-- `analyze`; `none` is the exception of an unknown recipe. -/
def analyze (run : TrialRun F) : Option (Analysis F) := do
  let m := run.metrics
  let r ← (SerialLink.byId run.recipe : Option (SerialLink.Recipe F))
  let (ratio, ratioReasons) ← if r.step = 1 then
      r.stages.head?.map fun stage => analyzeRatio m stage.wz
    else some (none, [])
  let reasons :=
    reasonIf (!run.complete) (run.reason.getD "interrupted") ++
    reasonIf (m.samples.getD 0 < 20) "insufficient sensor samples" ++
    reasonIf (0 < m.gaps.getD 0) "sensor gaps in the measurement window" ++
    ratioReasons ++
    (if r.verification then analyzeTurn m else []) ++
    (match recipeSigns r.id with
      | some signs => reasonIf (signsMismatch run.plateaus signs)
          "wheel signs / minimum RPM did not match"
      | none => []) ++
    reasonIf (run.surface.isEmpty && 0 < r.step) "surface not recorded"
  some
    { reasons, kIcr := ratio, knocks := m.knocks, accelPeak := m.accelPeak
      trackingRms := m.trackingRms, responseS := m.responseS, stopDistance := m.stopDistance
      stopS := m.stopS
      minimumSpeed := if r.id = "minimum" then minimumSpeed run.plateaus else none }

/-- The reasons against a trial of a recipe, given those against its ratio. -/
def trialReasons (run : TrialRun F) (r : SerialLink.Recipe F) (ratioReasons : List String) :
    List String :=
  reasonIf (!run.complete) (run.reason.getD "interrupted") ++
  reasonIf (run.metrics.samples.getD 0 < 20) "insufficient sensor samples" ++
  reasonIf (0 < run.metrics.gaps.getD 0) "sensor gaps in the measurement window" ++
  ratioReasons ++
  (if r.verification then analyzeTurn run.metrics else []) ++
  (match recipeSigns r.id with
    | some signs => reasonIf (signsMismatch run.plateaus signs)
        "wheel signs / minimum RPM did not match"
    | none => []) ++
  reasonIf (run.surface.isEmpty && 0 < r.step) "surface not recorded"

theorem analyze_reasons {run : TrialRun F} {a : Analysis F} (ha : analyze run = some a) :
    ∃ r ratioReasons, SerialLink.byId run.recipe = some r ∧
      a.reasons = trialReasons run r ratioReasons ∧
      (r.step = 1 → ∃ stage, r.stages.head? = some stage ∧
        analyzeRatio run.metrics stage.wz = (a.kIcr, ratioReasons)) := by
  rw [analyze] at ha
  obtain ⟨r, hr, ha⟩ := Option.bind_eq_some_iff.mp ha
  by_cases hstep : r.step = 1
  · simp only [if_pos hstep] at ha
    obtain ⟨⟨ratio, ratioReasons⟩, hratio, ha⟩ := Option.bind_eq_some_iff.mp ha
    obtain ⟨stage, hstage, hboth⟩ := Option.map_eq_some_iff.mp hratio
    obtain rfl := Option.some.inj ha
    exact ⟨r, ratioReasons, hr, rfl, fun _ => ⟨stage, hstage, hboth⟩⟩
  · simp only [if_neg hstep] at ha
    obtain rfl := Option.some.inj ha
    exact ⟨r, [], hr, rfl, fun h => absurd h hstep⟩

/-- What a valid analysis says of the trial: no reason applies. -/
structure ValidTrial (run : TrialRun F) (a : Analysis F) (r : SerialLink.Recipe F) : Prop where
  recipe : SerialLink.byId run.recipe = some r
  complete : run.complete = true
  samples : 20 ≤ run.metrics.samples.getD 0
  gaps : run.metrics.gaps.getD 0 = 0
  ratio : r.step = 1 → ∃ stage, r.stages.head? = some stage ∧
    analyzeRatio run.metrics stage.wz = (a.kIcr, [])
  turn : r.verification = true → analyzeTurn run.metrics = []
  signs : ∀ signs ∈ recipeSigns r.id, signsMismatch run.plateaus signs = false
  surface : 0 < r.step → run.surface.isEmpty = false

theorem reasonIf_eq_nil {applies : Bool} {reason : String} :
    reasonIf applies reason = [] ↔ applies = false := by
  cases applies with
  | false => exact ⟨fun _ => rfl, fun _ => rfl⟩
  | true => exact ⟨fun h => absurd h (List.cons_ne_nil _ _), fun h => absurd h (by decide)⟩

theorem analyze_valid {run : TrialRun F} {a : Analysis F} (ha : analyze run = some a)
    (hvalid : a.valid = true) : ∃ r, ValidTrial run a r := by
  obtain ⟨r, ratioReasons, hr, hreasons, hratio⟩ := analyze_reasons ha
  rw [Analysis.valid, List.isEmpty_iff, hreasons, trialReasons] at hvalid
  simp only [List.append_eq_nil_iff, reasonIf_eq_nil] at hvalid
  obtain ⟨⟨⟨⟨⟨⟨hcomplete, hsamples⟩, hgaps⟩, hnone⟩, hturn⟩, hsigns⟩, hsurface⟩ := hvalid
  rw [hnone] at hratio
  refine ⟨r, hr, by simpa using hcomplete, by simpa using hsamples, by simpa using hgaps, hratio,
    ?_, ?_, ?_⟩
  · intro hverification
    rwa [if_pos hverification] at hturn
  · intro signs hmem
    rw [Option.mem_def.mp hmem] at hsigns
    exact reasonIf_eq_nil.mp hsigns
  · intro hstep
    simpa [hstep] using hsurface

/-- The metrics object of a reply, before its values are rounded to text. -/
def CalibrationMetrics.reply (m : CalibrationMetrics F) : TrialMetrics F where
  samples := m.samples.toNat
  gaps := m.gaps.toNat
  knocks := m.knocks.toNat
  gyroYaw := m.gyroYaw
  encoderYaw := m.encoderYaw
  steadyGyro := m.steadyGyro
  steadyEncoder := m.steadyEncoder
  steadyS := m.steadyS
  accelPeak := m.accelPeak
  trackingRms := some (if 0 < m.trackingS then sqrt (m.trackingEnergy / m.trackingS) else 0)
  responseS := m.responseS
  stopDistance := m.stopDistance
  stopS := m.stopS

end Analysis

/-! ### What is integrated -/

/-- The arguments of one `calibration_metrics_observe`. -/
structure MetricsCall (F : Type) where
  now : UInt64
  sample : MetricsSample F

variable {K : Type} [Field K] [LinearOrder K] [FloorRing K] [Libm K]

def MetricsCall.observe (m : CalibrationMetrics K) (c : MetricsCall K) : CalibrationMetrics K :=
  calibrationMetricsObserve m c.now c.sample

/-- The seconds between two calls. -/
def callSeconds (pair : MetricsCall K × MetricsCall K) : K :=
  ((pair.2.now - pair.1.now).toNat : K) / 1e6

/-- Two successive calls that make an interval. -/
def MetricsInterval (pair : MetricsCall K × MetricsCall K) : Prop :=
  pair.1.sample.valid = true ∧ pair.2.sample.valid = true ∧ pair.1.now ≠ 0 ∧
    pair.1.now < pair.2.now ∧ callSeconds pair ≤ 0.05

instance : DecidablePred (MetricsInterval (K := K)) :=
  fun _ => inferInstanceAs (Decidable (_ ∧ _ ∧ _ ∧ _ ∧ _))

/-- The intervals of a measurement. -/
def metricsIntervals (calls : List (MetricsCall K)) : List (MetricsCall K × MetricsCall K) :=
  calls.successive.filter fun p => MetricsInterval p

/-- The integral of a quantity over intervals, by the trapezoidal rule. -/
def integral (f : MetricsSample K → K) (intervals : List (MetricsCall K × MetricsCall K)) : K :=
  (intervals.map fun p => (f p.2.sample + f p.1.sample) * 0.5 * callSeconds p).sum

omit [LinearOrder K] [FloorRing K] [Libm K] in
theorem integral_concat (f : MetricsSample K → K)
    (intervals : List (MetricsCall K × MetricsCall K)) (p : MetricsCall K × MetricsCall K) :
    integral f (intervals ++ [p]) =
      integral f intervals + (f p.2.sample + f p.1.sample) * 0.5 * callSeconds p := by
  simp [integral]

omit [LinearOrder K] [FloorRing K] [Libm K] in
/-- The integral of a multiple. -/
theorem integral_mul {f g : MetricsSample K → K} {k : K}
    {intervals : List (MetricsCall K × MetricsCall K)}
    (h : ∀ p ∈ intervals, f p.1.sample = k * g p.1.sample ∧ f p.2.sample = k * g p.2.sample) :
    integral f intervals = k * integral g intervals := by
  rw [integral, integral, ← List.sum_map_mul_left]
  congr 1
  refine List.map_congr_left fun p hp => ?_
  rw [(h p hp).1, (h p hp).2]
  ring

/-- After the calls: the sums of the metrics, the steady ones over some of the intervals,
and the last call if it can start an interval. -/
structure MetricsSums (calls : List (MetricsCall K))
    (steady : List (MetricsCall K × MetricsCall K)) (m : CalibrationMetrics K) : Prop where
  active : m.active = true
  gyroYaw : m.gyroYaw = integral MetricsSample.gyro (metricsIntervals calls)
  encoderYaw : m.encoderYaw = integral MetricsSample.encoder (metricsIntervals calls)
  distance : m.distance = integral MetricsSample.vx (metricsIntervals calls)
  sublist : steady.Sublist (metricsIntervals calls)
  steadyGyro : m.steadyGyro = integral MetricsSample.gyro steady
  steadyEncoder : m.steadyEncoder = integral MetricsSample.encoder steady
  steadyS : m.steadyS = (steady.map callSeconds).sum
  previous : m.previousValid = true ↔ ∃ c, calls.getLast? = some c ∧ c.sample.valid = true
  last : ∀ c, calls.getLast? = some c → c.sample.valid = true → m.lastUs = c.now ∧
    m.previousGyro = c.sample.gyro ∧ m.previousEncoder = c.sample.encoder ∧
    m.previousVx = c.sample.vx

section Step

variable {calls : List (MetricsCall K)} {steady : List (MetricsCall K × MetricsCall K)}
  {m : CalibrationMetrics K} {c : MetricsCall K}

/-- The sums after a call without an interval. -/
structure KeepsSums (m m' : CalibrationMetrics K) : Prop where
  gyroYaw : m'.gyroYaw = m.gyroYaw
  encoderYaw : m'.encoderYaw = m.encoderYaw
  distance : m'.distance = m.distance
  steadyGyro : m'.steadyGyro = m.steadyGyro
  steadyEncoder : m'.steadyEncoder = m.steadyEncoder
  steadyS : m'.steadyS = m.steadyS

/-- And after one that ends an interval, which may be steady. -/
structure AddsInterval (settled : Bool) (x : MetricsSample K) (dt : K)
    (m m' : CalibrationMetrics K) : Prop where
  gyroYaw : m'.gyroYaw = m.gyroYaw + (x.gyro + m.previousGyro) * 0.5 * dt
  encoderYaw : m'.encoderYaw = m.encoderYaw + (x.encoder + m.previousEncoder) * 0.5 * dt
  distance : m'.distance = m.distance + (x.vx + m.previousVx) * 0.5 * dt
  steadyGyro : m'.steadyGyro =
    if settled then m.steadyGyro + (x.gyro + m.previousGyro) * 0.5 * dt else m.steadyGyro
  steadyEncoder : m'.steadyEncoder =
    if settled then m.steadyEncoder + (x.encoder + m.previousEncoder) * 0.5 * dt
    else m.steadyEncoder
  steadyS : m'.steadyS = if settled then m.steadyS + dt else m.steadyS

/-- An invalid sample only breaks the measurement. -/
theorem observe_invalid (hactive : m.active = true) (hvalid : c.sample.valid = false) :
    c.observe m = { m with gaps := m.gaps + 1, previousValid := false } := by
  have husable : ¬c.sample.usable = true := by
    rw [MetricsSample.usable, hvalid]
    simp
  rw [MetricsCall.observe, calibrationMetricsObserve, if_neg (by simp [hactive]),
    if_pos (by simp [husable])]

/-- A valid sample ends an interval. -/
def endsInterval (m : CalibrationMetrics K) (c : MetricsCall K) : Bool :=
  m.previousValid && 0 < m.dt c.now && m.dt c.now ≤ 0.05

/-- The start of the motion is noted first. -/
def noteStart (m : CalibrationMetrics K) (c : MetricsCall K) : CalibrationMetrics K :=
  if m.motionStartUs = 0 ∧ c.sample.moving then { m with motionStartUs := c.now } else m

/-- Then the interval is measured, or the gap is. -/
def measureInterval (m : CalibrationMetrics K) (c : MetricsCall K) : CalibrationMetrics K :=
  if endsInterval m c then
    metricsRespond (metricsShake (metricsIntegrate m c.sample (m.steady c.now c.sample)
      (m.dt c.now)) c.now c.sample (m.dt c.now)) c.now c.sample (m.dt c.now)
  else if m.lastUs ≠ 0 then { m with gaps := m.gaps + 1 }
  else m

/-- And a valid sample is remembered. -/
theorem observe_valid (hactive : m.active = true) (hvalid : c.sample.valid = true) :
    ∃ m' : CalibrationMetrics K, m' = measureInterval (noteStart m c) c ∧
      c.observe m = { m' with
        samples := m'.samples + 1, lastUs := c.now, previousValid := true
        previousSteady := (noteStart m c).steady c.now c.sample
        previousShapedVx := c.sample.shapedVx, previousGyro := c.sample.gyro
        previousEncoder := c.sample.encoder, previousVx := c.sample.vx
        previousAccel := c.sample.accel } := by
  have husable : c.sample.usable = true := by
    rw [MetricsSample.usable, hvalid]
    rfl
  refine ⟨_, rfl, ?_⟩
  rw [MetricsCall.observe, calibrationMetricsObserve, if_neg (by simp [hactive]),
    if_neg (by simp [husable])]
  rfl

/-- What a valid sample does to the sums. -/
structure ObservedSums (m m' : CalibrationMetrics K) (c : MetricsCall K) : Prop where
  active : m'.active = m.active
  adds : endsInterval m c = true → ∃ settled, AddsInterval settled c.sample (m.dt c.now) m m'
  keeps : endsInterval m c = false → KeepsSums m m'

theorem measureInterval_sums (m : CalibrationMetrics K) (c : MetricsCall K) :
    ObservedSums m (measureInterval m c) c := by
  rw [measureInterval]
  split
  next hends =>
    refine ⟨rfl, fun _ => ⟨m.steady c.now c.sample && m.previousSteady, ?_⟩, fun h => ?_⟩
    · exact ⟨rfl, rfl, rfl, rfl, rfl, rfl⟩
    · rw [hends] at h
      cases h
  next hends =>
    refine ⟨?_, fun h => absurd h hends, fun _ => ?_⟩
    · split
      · rfl
      · rfl
    · split
      · exact ⟨rfl, rfl, rfl, rfl, rfl, rfl⟩
      · exact ⟨rfl, rfl, rfl, rfl, rfl, rfl⟩

/-- Noting the start changes nothing that is integrated. -/
theorem noteStart_sums {m' : CalibrationMetrics K} (h : ObservedSums (noteStart m c) m' c) :
    ObservedSums m m' c := by
  rw [noteStart] at h
  split at h
  · obtain ⟨hactive, hadds, hkeeps⟩ := h
    refine ⟨hactive, fun hends => ?_, fun hends => ?_⟩
    · obtain ⟨settled, h⟩ := hadds hends
      exact ⟨settled, h.gyroYaw, h.encoderYaw, h.distance, h.steadyGyro, h.steadyEncoder,
        h.steadyS⟩
    · have h := hkeeps hends
      exact ⟨h.gyroYaw, h.encoderYaw, h.distance, h.steadyGyro, h.steadyEncoder, h.steadyS⟩
  · exact h

theorem observe_sums (hactive : m.active = true) (hvalid : c.sample.valid = true) :
    ObservedSums m (c.observe m) c := by
  obtain ⟨m', hm', heq⟩ := observe_valid hactive hvalid
  have h : ObservedSums m m' c := by
    rw [hm']
    exact noteStart_sums (measureInterval_sums _ c)
  rw [heq]
  refine ⟨h.active, fun hends => ?_, fun hends => ?_⟩
  · obtain ⟨settled, h⟩ := h.adds hends
    exact ⟨settled, h.gyroYaw, h.encoderYaw, h.distance, h.steadyGyro, h.steadyEncoder, h.steadyS⟩
  · have h := h.keeps hends
    exact ⟨h.gyroYaw, h.encoderYaw, h.distance, h.steadyGyro, h.steadyEncoder, h.steadyS⟩

/-- The interval of the code is the one between the last call and this one. -/
theorem endsInterval_iff [IsStrictOrderedRing K] {last : MetricsCall K}
    (hprevious : m.previousValid = true) (hlast : m.lastUs = last.now)
    (hvalid : last.sample.valid = true) (hc : c.sample.valid = true) :
    endsInterval m c = true ↔ MetricsInterval (last, c) := by
  rw [endsInterval, hprevious, Bool.true_and, Bool.and_eq_true, decide_eq_true_eq,
    decide_eq_true_eq, CalibrationMetrics.dt, hlast, MetricsInterval]
  by_cases hlater : last.now ≠ 0 ∧ last.now < c.now
  · rw [if_pos hlater]
    have hpos : (0 : K) < ((c.now - last.now).toNat : K) / 1e6 := by
      refine div_pos (Nat.cast_pos.mpr ?_) (by norm_num)
      rw [UInt64.toNat_sub_of_le _ _ (UInt64.le_of_lt hlater.2)]
      have hlt := UInt64.lt_iff_toNat_lt.mp hlater.2
      omega
    exact ⟨fun h => ⟨hvalid, hc, hlater.1, hlater.2, h.2⟩, fun h => ⟨hpos, h.2.2.2.2⟩⟩
  · rw [if_neg hlater]
    exact ⟨fun h => absurd h.1 (lt_irrefl 0), fun h => absurd ⟨h.2.2.1, h.2.2.2.1⟩ hlater⟩

/-- Whether a valid call ends an interval, by the calls so far. -/
theorem MetricsSums.ends_iff [IsStrictOrderedRing K] (h : MetricsSums calls steady m)
    (hc : c.sample.valid = true) : endsInterval m c = true ↔
      ∃ last, calls.getLast? = some last ∧ MetricsInterval (last, c) := by
  constructor
  · intro hends
    have hprevious : m.previousValid = true := by
      rw [endsInterval, Bool.and_eq_true, Bool.and_eq_true] at hends
      exact hends.1.1
    obtain ⟨last, hlast, hvalid⟩ := h.previous.mp hprevious
    have hnow := (h.last last hlast hvalid).1
    exact ⟨last, hlast, (endsInterval_iff hprevious hnow hvalid hc).mp hends⟩
  · rintro ⟨last, hlast, hinterval⟩
    have hvalid := hinterval.1
    exact (endsInterval_iff (h.previous.mpr ⟨last, hlast, hvalid⟩)
      (h.last last hlast hvalid).1 hvalid hc).mpr hinterval

omit [FloorRing K] [Libm K] in
/-- The sums, if the calls since add no interval. -/
theorem MetricsSums.of_keeps {m' : CalibrationMetrics K} (h : MetricsSums calls steady m)
    (hkeeps : KeepsSums m m') (hskip : metricsIntervals (calls ++ [c]) = metricsIntervals calls)
    (hactive : m'.active = true) (hprevious : m'.previousValid = c.sample.valid)
    (hlast : c.sample.valid = true → m'.lastUs = c.now ∧ m'.previousGyro = c.sample.gyro ∧
      m'.previousEncoder = c.sample.encoder ∧ m'.previousVx = c.sample.vx) :
    MetricsSums (calls ++ [c]) steady m' where
  active := hactive
  gyroYaw := by rw [hskip, hkeeps.gyroYaw, h.gyroYaw]
  encoderYaw := by rw [hskip, hkeeps.encoderYaw, h.encoderYaw]
  distance := by rw [hskip, hkeeps.distance, h.distance]
  sublist := by
    rw [hskip]
    exact h.sublist
  steadyGyro := hkeeps.steadyGyro.trans h.steadyGyro
  steadyEncoder := hkeeps.steadyEncoder.trans h.steadyEncoder
  steadyS := hkeeps.steadyS.trans h.steadyS
  previous := by
    rw [hprevious, List.getLast?_concat]
    simp
  last := by
    intro c' hc' hvalid
    rw [List.getLast?_concat] at hc'
    obtain rfl := Option.some.inj hc'
    exact hlast hvalid

/-- The sums of one more call. -/
theorem MetricsSums.observe [IsStrictOrderedRing K] (h : MetricsSums calls steady m)
    (c : MetricsCall K) : ∃ steady', MetricsSums (calls ++ [c]) steady' (c.observe m) := by
  by_cases hc : c.sample.valid = true
  swap
  · -- an invalid sample ends no interval
    have hskip : metricsIntervals (calls ++ [c]) = metricsIntervals calls :=
      List.filter_successive_skip fun _ _ hinterval => hc hinterval.2.1
    refine ⟨steady, ?_⟩
    rw [observe_invalid h.active (Bool.eq_false_iff.mpr hc)]
    exact h.of_keeps ⟨rfl, rfl, rfl, rfl, rfl, rfl⟩ hskip h.active
      (Bool.eq_false_iff.mpr hc).symm fun hvalid => absurd hvalid hc
  have hsums := observe_sums h.active hc
  have hremembered : (c.observe m).previousValid = true ∧ (c.observe m).lastUs = c.now ∧
      (c.observe m).previousGyro = c.sample.gyro ∧
      (c.observe m).previousEncoder = c.sample.encoder ∧
      (c.observe m).previousVx = c.sample.vx := by
    obtain ⟨m', -, heq⟩ := observe_valid h.active hc
    rw [heq]
    exact ⟨rfl, rfl, rfl, rfl, rfl⟩
  by_cases hends : endsInterval m c = true
  · -- the interval from the last call, which was valid
    obtain ⟨last, hlast, hinterval⟩ := (h.ends_iff hc).mp hends
    obtain ⟨hnow, hgyro, hencoder, hvx⟩ := h.last last hlast hinterval.1
    have hdt : m.dt c.now = callSeconds (last, c) := by
      rw [CalibrationMetrics.dt, hnow]
      exact if_pos ⟨hinterval.2.2.1, hinterval.2.2.2.1⟩
    have hadd : metricsIntervals (calls ++ [c]) = metricsIntervals calls ++ [(last, c)] :=
      List.filter_successive_add hlast hinterval
    obtain ⟨settled, hadds⟩ := hsums.adds hends
    rw [hdt] at hadds
    obtain ⟨hg, he, hd, hsg, hse, hss⟩ := hadds
    rw [hgyro] at hg hsg
    rw [hencoder] at he hse
    rw [hvx] at hd
    refine ⟨if settled then steady ++ [(last, c)] else steady, ?_⟩
    refine ⟨hsums.active.trans h.active, ?_, ?_, ?_, ?_, ?_, ?_, ?_, ?_, ?_⟩
    · rw [hadd, integral_concat, hg, h.gyroYaw]
    · rw [hadd, integral_concat, he, h.encoderYaw]
    · rw [hadd, integral_concat, hd, h.distance]
    · rw [hadd]
      split
      · exact h.sublist.append_right [(last, c)]
      · exact h.sublist.trans (List.sublist_append_left _ _)
    · rw [hsg, h.steadyGyro]
      split
      · rw [integral_concat]
      · rfl
    · rw [hse, h.steadyEncoder]
      split
      · rw [integral_concat]
      · rfl
    · rw [hss, h.steadyS]
      split
      · simp
      · rfl
    · rw [List.getLast?_concat]
      simp [hremembered.1, hc]
    · intro c' hc' _
      rw [List.getLast?_concat] at hc'
      obtain rfl := Option.some.inj hc'
      exact hremembered.2
  · -- no interval ends here
    have hskip : metricsIntervals (calls ++ [c]) = metricsIntervals calls := by
      refine List.filter_successive_skip fun last hlast hinterval => hends ?_
      exact (h.ends_iff hc).mpr ⟨last, hlast, hinterval⟩
    exact ⟨steady, h.of_keeps (hsums.keeps (Bool.eq_false_iff.mpr hends)) hskip
      (hsums.active.trans h.active) (hremembered.1.trans hc.symm) fun _ => hremembered.2⟩

end Step

/-! ### Whole measurements -/

/-- `calibration_metrics_begin`, the choice of the response, and then the calls in order. -/
def metricsRun (now : UInt64) (accel : Fin 3 → K) (bodyResponse : Bool)
    (calls : List (MetricsCall K)) : CalibrationMetrics K :=
  calls.foldl MetricsCall.observe { calibrationMetricsBegin now accel with bodyResponse }

/-- The run lemma. -/
theorem metricsSums_run [IsStrictOrderedRing K] (now : UInt64) (accel : Fin 3 → K)
    (bodyResponse : Bool) (calls : List (MetricsCall K)) :
    ∃ steady, MetricsSums calls steady (metricsRun now accel bodyResponse calls) := by
  induction calls using List.reverseRecOn with
  | nil =>
    refine ⟨[], rfl, rfl, rfl, rfl, List.Sublist.refl _, rfl, rfl, rfl, ?_, ?_⟩
    · simp [metricsRun, calibrationMetricsBegin, CalibrationMetrics.zero]
    · simp
  | append_singleton calls c ih =>
    obtain ⟨steady, h⟩ := ih
    rw [metricsRun, List.foldl_append]
    exact h.observe c

/-- What a step-1 recipe makes of the steady sums. -/
theorem analyze_kIcr {run : TrialRun K} {r : SerialLink.Recipe K} {a : Analysis K} {ratio : K}
    (hr : SerialLink.byId run.recipe = some r) (hstep : r.step = 1)
    (ha : analyze run = some a) (hratio : a.kIcr = some ratio) :
    0.001 < |run.metrics.steadyGyro.getD 0| ∧
      ratio = run.metrics.steadyEncoder.getD 0 / run.metrics.steadyGyro.getD 0 := by
  obtain ⟨r', reasons, hr', -, hboth⟩ := analyze_reasons ha
  obtain rfl := Option.some.inj (hr.symm.trans hr')
  obtain ⟨stage, -, hstage⟩ := hboth hstep
  -- the ratio is the one of `analyzeRatio`
  have hkIcr : a.kIcr = (analyzeRatio run.metrics stage.wz).1 := by
    rw [hstage]
  rw [hkIcr, analyzeRatio] at hratio
  dsimp only at hratio
  split at hratio
  next hsteady => exact ⟨hsteady, (Option.some.inj hratio).symm⟩
  next => cases hratio

/-- **The skid ratio is recovered.**  If every valid sample has the encoder at `k` times
the gyro, so have the integrals at every point: the angles and the distance are taken
over the same intervals, and the steady sums over the same ones of them.  So the ratio
that a step-1 trial returns is `k`. -/
theorem skid_ratio_recovered [IsStrictOrderedRing K] (now : UInt64) (accel : Fin 3 → K)
    (bodyResponse : Bool) (k : K) (calls : List (MetricsCall K))
    (hk : ∀ c ∈ calls, c.sample.valid = true → c.sample.encoder = k * c.sample.gyro) :
    let m := metricsRun now accel bodyResponse calls
    (m.encoderYaw = k * m.gyroYaw ∧ m.steadyEncoder = k * m.steadyGyro) ∧
    (m.gyroYaw = integral MetricsSample.gyro (metricsIntervals calls) ∧
      m.encoderYaw = integral MetricsSample.encoder (metricsIntervals calls) ∧
      m.distance = integral MetricsSample.vx (metricsIntervals calls) ∧
      ∃ steady : List (MetricsCall K × MetricsCall K),
        steady.Sublist (metricsIntervals calls) ∧
        m.steadyGyro = integral MetricsSample.gyro steady ∧
        m.steadyEncoder = integral MetricsSample.encoder steady ∧
        m.steadyS = (steady.map callSeconds).sum) ∧
    ∀ (run : TrialRun K) (r : SerialLink.Recipe K) (a : Analysis K) (ratio : K),
      run.metrics = m.reply → SerialLink.byId run.recipe = some r → r.step = 1 →
      analyze run = some a → a.kIcr = some ratio → ratio = k := by
  intro m
  obtain ⟨steady, h⟩ := metricsSums_run now accel bodyResponse calls
  -- the samples of an interval are valid samples of the run
  have hintervals : ∀ p ∈ metricsIntervals calls,
      p.1.sample.encoder = k * p.1.sample.gyro ∧ p.2.sample.encoder = k * p.2.sample.gyro := by
    rintro ⟨a, b⟩ hp
    obtain ⟨hmem, hinterval⟩ := List.mem_filter.mp hp
    have hinterval : MetricsInterval (a, b) := by simpa using hinterval
    obtain ⟨ha, hb⟩ := List.of_mem_zip hmem
    exact ⟨hk a ha hinterval.1, hk b (List.mem_of_mem_tail hb) hinterval.2.1⟩
  have hyaw : m.encoderYaw = k * m.gyroYaw := by
    rw [h.encoderYaw, h.gyroYaw]
    exact integral_mul hintervals
  have hsteady : m.steadyEncoder = k * m.steadyGyro := by
    rw [h.steadyEncoder, h.steadyGyro]
    exact integral_mul fun p hp => hintervals p (h.sublist.subset hp)
  refine ⟨⟨hyaw, hsteady⟩, ⟨h.gyroYaw, h.encoderYaw, h.distance, steady, h.sublist, h.steadyGyro,
    h.steadyEncoder, h.steadyS⟩, ?_⟩
  intro run r a ratio hrun hr hstep ha hratio
  obtain ⟨hlarge, hvalue⟩ := analyze_kIcr hr hstep ha hratio
  rw [hrun] at hlarge hvalue
  have hlarge : 0.001 < |m.steadyGyro| := hlarge
  have hne : m.steadyGyro ≠ 0 := by
    intro hzero
    rw [hzero, abs_zero] at hlarge
    norm_num at hlarge
  have hvalue : ratio = m.steadyEncoder / m.steadyGyro := hvalue
  rw [hvalue, hsteady, mul_div_assoc, div_self hne, mul_one]

/-! ### A spin -/

/-- A sample of a spin at 0.2 rad/s, with a skid ratio of one and a half. -/
def spinSample : MetricsSample ℚ :=
  { accel := fun _ => 0, gyro := 1 / 5, vx := 0, encoder := 3 / 10, requestedVx := 0
    requestedWz := 1 / 5, shapedVx := 0, shapedWz := 1 / 5, icr := 2, valid := true
    moving := true }

/-- The start, and 80 ms two seconds later. -/
def spinCalls : List (MetricsCall ℚ) :=
  [⟨1, spinSample⟩, ⟨2000001, spinSample⟩, ⟨2040001, spinSample⟩, ⟨2080001, spinSample⟩]

/-- The trial, as it is analysed. -/
def spinRun : TrialRun ℚ :=
  { metrics := (metricsRun 1 (fun _ => 0) true spinCalls).reply, complete := true, reason := none
    recipe := "spin-0.2-CCW-1", plateaus := [], surface := "floor" }

theorem skid_ratio_recovered_spin : (analyze spinRun).bind Analysis.kIcr = some (3 / 2) := by
  obtain ⟨r, hr, hstep⟩ : ∃ r : SerialLink.Recipe ℚ,
      SerialLink.byId spinRun.recipe = some r ∧ r.step = 1 := ⟨_, rfl, rfl⟩
  have hsome : ((analyze spinRun).bind Analysis.kIcr).isSome = true := by decide +kernel
  obtain ⟨ratio, hratio⟩ := Option.isSome_iff_exists.mp hsome
  obtain ⟨a, ha, hkIcr⟩ := Option.bind_eq_some_iff.mp hratio
  have hk : ∀ c ∈ spinCalls, c.sample.valid = true →
      c.sample.encoder = 3 / 2 * c.sample.gyro := by decide +kernel
  have hvalue := (skid_ratio_recovered 1 (fun _ => 0) true (3 / 2) spinCalls hk).2.2 spinRun r a
    ratio rfl hr hstep ha hkIcr
  rw [hratio, hvalue]
