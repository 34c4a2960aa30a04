/-
The filtered yaw rate (`gyro_yaw.c`), over an exact field.

After calibration the estimator moves its rate toward each valid sample, by a gain that
grows with the time since the one before it, and takes a sample over whole after a gap.
All that is used of the gain `1 - exp (-x)` is stated in `ExpGain`.

* `Filtered` — the rate is the weighted mean of the final block of samples;
* `filtered_rate` — whatever rate is reported, it is that mean, of a block that ends
  with the last sample; it depends on nothing before the block.
-/
import Base101.GyroYaw
import Base101.FinalBlock
import Base101.Successive

open Double

variable {K : Type} [Field K] [LinearOrder K] [FloorRing K] [Libm K]

/-- `1 - exp (-x)`. -/
def expGain (x : K) : K := -expm1 (-x)

/-- What is assumed of it: zero at zero, increasing, and below one. -/
structure ExpGain (K : Type) [Field K] [LinearOrder K] [FloorRing K] [Libm K] : Prop where
  zero : expGain (0 : K) = 0
  monotone : Monotone (expGain (K := K))
  lt_one : ∀ x : K, expGain x < 1

/-- The gain of a sample over the one before it. -/
def gainBetween (lpfHz : K) (pair : GyroSample K × GyroSample K) : K :=
  if lpfHz ≤ 0 then 1
  else expGain (6.283185307179586 * lpfHz *
    (((pair.2.nowUs.toNat - pair.1.nowUs.toNat : ℕ) : K) / 1e6))

/-- The weights of the samples of a block: the first one enters with weight one. -/
def blockWeights (lpfHz : K) (block : List (GyroSample K)) : List K :=
  weights (block.successive.map (gainBetween lpfHz))

/-- The rates of a block, corrected for the bias. -/
def correctedRates (bias : K) (block : List (GyroSample K)) : List K :=
  block.map fun s => s.rawRate - bias

/-- The final block of a history. -/
def GyroBlock (maxGapUs : UInt64) : List (GyroSample K) → List (GyroSample K) → Prop :=
  FinalBlock (fun s => s.valid = true) (WithinGap maxGapUs)

section Gain

variable {lpfHz : K}

/-- With the filter on or off, the gain is between zero and one. -/
theorem gainBetween_bounds [IsStrictOrderedRing K] (hexp : ExpGain K)
    (pair : GyroSample K × GyroSample K) :
    0 ≤ gainBetween lpfHz pair ∧ gainBetween lpfHz pair ≤ 1 := by
  rw [gainBetween]
  by_cases hoff : lpfHz ≤ 0
  · rw [if_pos hoff]
    exact ⟨zero_le_one, le_refl 1⟩
  · rw [if_neg hoff]
    have hpos : 0 < lpfHz := not_le.mp hoff
    have htime : (0 : K) ≤ 6.283185307179586 * lpfHz *
        (((pair.2.nowUs.toNat - pair.1.nowUs.toNat : ℕ) : K) / 1e6) := by
      refine mul_nonneg (mul_nonneg (by norm_num) hpos.le) (div_nonneg (Nat.cast_nonneg _) ?_)
      norm_num
    have hgain := hexp.monotone htime
    rw [hexp.zero] at hgain
    exact ⟨hgain, (hexp.lt_one _).le⟩

theorem length_blockWeights {block : List (GyroSample K)} (hne : block ≠ []) :
    (blockWeights lpfHz block).length = block.length := by
  obtain ⟨first, rest, rfl⟩ := List.exists_cons_of_ne_nil hne
  rw [blockWeights, length_weights, List.length_map, List.successive, List.length_zip]
  simp

/-- One more sample in the block. -/
theorem weightedSum_block {block : List (GyroSample K)} {last : GyroSample K}
    (hlast : block.getLast? = some last) (s : GyroSample K) (bias : K) :
    weightedSum (blockWeights lpfHz (block ++ [s])) (correctedRates bias (block ++ [s])) =
      weightedSum (blockWeights lpfHz block) (correctedRates bias block) +
        gainBetween lpfHz (last, s) * (s.rawRate - bias -
          weightedSum (blockWeights lpfHz block) (correctedRates bias block)) := by
  obtain ⟨earlier, rfl⟩ := List.getLast?_eq_some_iff.mp hlast
  have hlength : (correctedRates bias (earlier ++ [last])).length =
      ((earlier ++ [last]).successive.map (gainBetween lpfHz)).length + 1 := by
    rw [correctedRates, List.length_map, List.length_map, List.successive, List.length_zip]
    simp
  rw [blockWeights, List.successive_concat, List.map_append, correctedRates, List.map_append]
  exact weightedSum_weights hlength _ _

end Gain

/-! ### One sample -/

section Observe

variable {g : GyroYaw K} {s : GyroSample K}

/-- A bad sample only stops the reports. -/
theorem observe_bad (hcal : g.calibrated = true) (hs : s.valid = false) :
    s.observe g = { g with sampleValid := false } := by
  rw [observe_eq, hs]
  simp [hcal]

/-- A good one is filtered. -/
theorem observe_good (hcal : g.calibrated = true) (hs : s.valid = true) :
    s.observe g = filterRate (recorded g s) s.rawRate (afterGap g s) (elapsedSeconds g s) := by
  rw [observe_eq, hs, hcal, isfinite_exact]
  rfl

/-- And reported at once. -/
theorem gyroYawGet_good (hcal : g.calibrated = true) (hs : s.valid = true) :
    gyroYawGet (s.observe g) s.nowUs = some (s.observe g).rate := by
  have hfresh : ¬(s.nowUs < s.nowUs) ∧ ¬(g.cfg.maxGapUs < s.nowUs - s.nowUs) := by
    rw [UInt64.sub_self]
    exact ⟨UInt64.lt_irrefl _, UInt64.not_lt.mpr UInt64.zero_le⟩
  rw [observe_good hcal hs]
  generalize afterGap g s = gap
  show (if !g.calibrated || !true || decide (s.nowUs < s.nowUs) ||
    decide (g.cfg.maxGapUs < s.nowUs - s.nowUs) then none else _) = _
  rw [hcal, decide_eq_false hfresh.1, decide_eq_false hfresh.2]
  rfl

/-- After a gap the sample is taken over. -/
theorem filterRate_gap (rawRate dt : K) :
    (filterRate g rawRate true dt).rate = rawRate - g.bias := by
  show g.rate + 1 * (rawRate - g.bias - g.rate) = _
  ring

/-- Without one the rate moves toward it by the gain. -/
theorem filterRate_step {last : GyroSample K} (hle : last.nowUs ≤ s.nowUs) :
    (filterRate g s.rawRate false (((s.nowUs - last.nowUs).toNat : K) / 1e6)).rate =
      g.rate + gainBetween g.cfg.lpfHz (last, s) * (s.rawRate - g.bias - g.rate) := by
  rw [UInt64.toNat_sub_of_le _ _ hle, gainBetween, expGain, ← neg_mul, ← neg_mul]
  show g.rate + (if (false || decide (g.cfg.lpfHz ≤ 0)) = true then 1 else _) * _ = _
  rw [Bool.false_or]
  simp only [decide_eq_true_eq]

/-- The sample that calibrates is valid, and the first one filtered. -/
theorem observe_calibrates_rate (hcal : g.calibrated = false)
    (hnow : (s.observe g).calibrated = true) :
    s.valid = true ∧ (s.observe g).cfg = g.cfg ∧ (s.observe g).sampleValid = true ∧
      (s.observe g).lastSampleUs = s.nowUs ∧
      (s.observe g).rate = s.rawRate - (s.observe g).bias := by
  obtain ⟨hcfg, hcal', hvalid', hlast⟩ := extended_keeps g s
  rw [hcal] at hcal'
  -- every other branch leaves the flag as it was
  rw [observe_eq, isfinite_exact, hcal] at hnow ⊢
  by_cases hs : s.valid = true
  · rw [hs] at hnow ⊢
    simp only [Bool.and_true, Bool.not_true, Bool.not_false, Bool.false_eq_true, if_false,
      if_true] at hnow ⊢
    split at hnow
    · exact absurd hnow (by simp [restartWindow, recorded, hcal])
    next hstationary =>
      split at hnow
      · exact absurd hnow (by simp [hcal'])
      next hfull =>
        split at hnow
        · exact absurd hnow (by simp [restartWindow, hcal'])
        next haccepted =>
          rw [if_neg hstationary, if_neg hfull, if_neg haccepted]
          exact ⟨trivial, hcfg, hvalid', hlast, filterRate_gap _ _⟩
  · simp [hs, restartWindow] at hnow

end Observe

/-! ### The invariant of the filter -/

/-- After the samples from the calibrating one on: the rate is the mean of the final
block, which is empty if the last sample was bad. -/
structure Filtered (cfg : GyroYawConfig K) (bias : K) (history block : List (GyroSample K))
    (g : GyroYaw K) : Prop where
  config : g.cfg = cfg
  calibrated : g.calibrated = true
  offset : g.bias = bias
  final : GyroBlock cfg.maxGapUs history block
  valid : g.sampleValid = true ↔ block ≠ []
  last : ∀ last, block.getLast? = some last → g.lastSampleUs = last.nowUs ∧
    g.rate = weightedSum (blockWeights cfg.lpfHz block) (correctedRates bias block)

section Run

variable {cfg : GyroYawConfig K} {bias : K} {history block : List (GyroSample K)} {g : GyroYaw K}

/-- A block of one sample. -/
theorem weightedSum_singleton (lpfHz bias : K) (s : GyroSample K) :
    weightedSum (blockWeights lpfHz [s]) (correctedRates bias [s]) = s.rawRate - bias := by
  show 1 * (s.rawRate - bias) + 0 = _
  ring

/-- The calibrating sample starts the first block. -/
theorem filtered_start {s : GyroSample K} (hcal : g.calibrated = false)
    (hnow : (s.observe g).calibrated = true) :
    Filtered g.cfg (s.observe g).bias [s] [s] (s.observe g) := by
  obtain ⟨hvalid, hcfg, hsample, hlast, hrate⟩ := observe_calibrates_rate hcal hnow
  refine ⟨hcfg, hnow, rfl, ?_, ?_, ?_⟩
  · show FinalBlock _ _ ([] ++ [s]) [s]
    exact finalBlock_concat_new hvalid (by simp)
  · simp [hsample]
  · intro last hl
    obtain rfl : s = last := Option.some.inj hl
    rw [weightedSum_singleton]
    exact ⟨hlast, hrate⟩

/-- The block after one sample more. -/
theorem Filtered.observe (h : Filtered cfg bias history block g) (s : GyroSample K) :
    ∃ block', Filtered cfg bias (history ++ [s]) block' (s.observe g) := by
  by_cases hs : s.valid = true
  swap
  · refine ⟨[], ?_⟩
    rw [observe_bad h.calibrated (Bool.eq_false_iff.mpr hs)]
    exact ⟨h.config, h.calibrated, h.offset, finalBlock_concat_bad hs, by simp, by simp⟩
  have hgood := observe_good h.calibrated hs
  by_cases hgap : afterGap g s = true
  · -- a new block: the sample is taken over
    rw [hgap] at hgood
    refine ⟨[s], ?_⟩
    rw [hgood]
    refine ⟨h.config, h.calibrated, h.offset, ?_, ?_, ?_⟩
    · refine finalBlock_concat_new hs ?_
      intro last hlast hvalid hlink
      have hblock := h.final.getLast?_of_good hlast hvalid
      have hsample : g.sampleValid = true := h.valid.mpr (by rintro rfl; simp at hblock)
      rw [← h.config] at hlink
      rw [(afterGap_iff hsample (h.last last hblock).1).mpr hlink] at hgap
      exact absurd hgap (by simp)
    · simp [filterRate, recorded]
    · intro last hl
      obtain rfl : s = last := Option.some.inj hl
      rw [weightedSum_singleton, filterRate_gap, ← h.offset]
      exact ⟨rfl, rfl⟩
  · -- the block goes on: the rate moves by the gain
    rw [Bool.not_eq_true] at hgap
    have hsample : g.sampleValid = true := by
      by_contra hne
      rw [Bool.not_eq_true] at hne
      rw [afterGap, hne] at hgap
      simp at hgap
    obtain ⟨last, hlast⟩ : ∃ last, block.getLast? = some last :=
      ⟨_, List.getLast?_eq_some_getLast (h.valid.mp hsample)⟩
    obtain ⟨hrecorded, hrate⟩ := h.last last hlast
    have hlink := (afterGap_iff hsample hrecorded).mp hgap
    have hle : last.nowUs ≤ s.nowUs := UInt64.le_iff_toNat_le.mpr hlink.1.le
    have helapsed : elapsedSeconds g s = ((s.nowUs - last.nowUs).toNat : K) / 1e6 := by
      rw [elapsedSeconds, hgap, hrecorded]
      rfl
    rw [hgap, helapsed] at hgood
    refine ⟨block ++ [s], ?_⟩
    rw [hgood]
    refine ⟨h.config, h.calibrated, h.offset, ?_, ?_, ?_⟩
    · rw [h.config] at hlink
      exact finalBlock_concat_linked h.final hlast hs hlink
    · simp [filterRate, recorded]
    · intro last' hl
      rw [List.getLast?_concat] at hl
      obtain rfl : s = last' := Option.some.inj hl
      refine ⟨rfl, ?_⟩
      rw [weightedSum_block hlast, ← hrate, ← h.offset, ← h.config]
      exact filterRate_step hle

/-- The run lemma. -/
theorem Filtered.run (h : Filtered cfg bias history block g) (samples : List (GyroSample K)) :
    ∃ block', Filtered cfg bias (history ++ samples) block'
      (samples.foldl GyroSample.observe g) := by
  induction samples generalizing history block g with
  | nil => exact ⟨block, by rwa [List.append_nil]⟩
  | cons s samples ih =>
    obtain ⟨block', h'⟩ := h.observe s
    obtain ⟨final, hfinal⟩ := ih h'
    rw [List.append_assoc, List.singleton_append] at hfinal
    exact ⟨final, hfinal⟩

end Run

/-! ### What is reported -/

/-- A report some time after calibration: the sample that calibrates, those after it, and
the rate that is returned. -/
structure GyroReport (K : Type) [Field K] [LinearOrder K] [FloorRing K] [Libm K] where
  before : GyroYaw K
  first : GyroSample K
  samples : List (GyroSample K)
  nowUs : UInt64
  rate : K
  uncalibrated : before.calibrated = false
  calibrates : (first.observe before).calibrated = true
  reported : gyroYawGet (samples.foldl GyroSample.observe (first.observe before)) nowUs = some rate

namespace GyroReport

/-- The samples from the calibrating one on. -/
def history (r : GyroReport K) : List (GyroSample K) := r.first :: r.samples

/-- The estimator that reports. -/
def state (r : GyroReport K) : GyroYaw K :=
  r.samples.foldl GyroSample.observe (r.first.observe r.before)

theorem filtered (r : GyroReport K) :
    ∃ block, Filtered r.before.cfg r.state.bias r.history block r.state := by
  obtain ⟨block, h⟩ := (filtered_start r.uncalibrated r.calibrates).run r.samples
  refine ⟨block, ?_⟩
  have hbias : r.state.bias = (r.first.observe r.before).bias := h.offset
  rw [hbias]
  exact h

/-- Only a fresh rate is reported. -/
theorem fresh (r : GyroReport K) :
    r.state.sampleValid = true ∧ r.state.lastSampleUs.toNat ≤ r.nowUs.toNat ∧
      r.nowUs.toNat - r.state.lastSampleUs.toNat ≤ r.state.cfg.maxGapUs.toNat ∧
      r.rate = r.state.rate := by
  have hreported : gyroYawGet r.state r.nowUs = some r.rate := r.reported
  rw [gyroYawGet] at hreported
  split at hreported
  · cases hreported
  next hfresh =>
    simp only [Bool.or_eq_true, Bool.not_eq_true', decide_eq_true_eq, not_or,
      Bool.not_eq_false, UInt64.not_lt] at hfresh
    obtain ⟨⟨⟨-, hvalid⟩, hle⟩, hgap⟩ := hfresh
    rw [UInt64.le_iff_toNat_le, UInt64.toNat_sub_of_le _ _ hle] at hgap
    exact ⟨hvalid, UInt64.le_iff_toNat_le.mp hle, hgap, (Option.some.inj hreported).symm⟩

end GyroReport

/-- **A reported rate forgets everything before the last gap.**  The last sample was good
and is fresh, and the rate is the weighted mean of the final block of samples since the
calibration, the first of which entered with weight one.  So it is no larger than the
largest of them, and another history with the same block reports the same rate. -/
theorem filtered_rate [IsStrictOrderedRing K] (hexp : ExpGain K) (r : GyroReport K) :
    ∃ last block, r.history.getLast? = some last ∧ last.valid = true ∧
      last.nowUs.toNat ≤ r.nowUs.toNat ∧
      r.nowUs.toNat - last.nowUs.toNat ≤ r.before.cfg.maxGapUs.toNat ∧
      GyroBlock r.before.cfg.maxGapUs r.history block ∧
      WeightedMean (blockWeights r.before.cfg.lpfHz block) (correctedRates r.state.bias block)
        r.rate ∧
      (∃ s ∈ block, |r.rate| ≤ |s.rawRate - r.state.bias|) ∧
      ∀ r' : GyroReport K, r'.before.cfg = r.before.cfg → r'.state.bias = r.state.bias →
        GyroBlock r.before.cfg.maxGapUs r'.history block → r'.rate = r.rate := by
  obtain ⟨block, h⟩ := r.filtered
  obtain ⟨hvalid, hle, hgap, hrate⟩ := r.fresh
  have hne : block ≠ [] := h.valid.mp hvalid
  have hlast := List.getLast?_eq_some_getLast hne
  set last := block.getLast hne
  obtain ⟨hrecorded, hmean⟩ := h.last last hlast
  rw [hrecorded] at hle hgap
  rw [h.config] at hgap
  rw [← hrate] at hmean
  have hweighted : WeightedMean (blockWeights r.before.cfg.lpfHz block)
      (correctedRates r.state.bias block) r.rate := by
    refine ⟨?_, weights_nonneg ?_, sum_weights _, hmean⟩
    · rw [length_blockWeights hne, correctedRates, List.length_map]
    · intro gain hgain
      obtain ⟨pair, -, rfl⟩ := List.mem_map.mp hgain
      exact gainBetween_bounds hexp pair
  refine ⟨last, block, ?_, h.final.good last (List.getLast_mem hne), hle, hgap, h.final, hweighted,
    ?_, ?_⟩
  · rw [← h.final.getLast? hne]
    exact hlast
  · obtain ⟨v, hv, hbound⟩ := hweighted.abs_le (by simpa [correctedRates] using hne)
    obtain ⟨s, hs, rfl⟩ := List.mem_map.mp hv
    exact ⟨s, hs, hbound⟩
  · intro r' hcfg hbias hblock
    -- the other history ends in the same block, so its rate is the same mean
    obtain ⟨block', h'⟩ := r'.filtered
    rw [hcfg, hbias] at h'
    obtain rfl := h'.final.unique hblock
    obtain ⟨-, hmean'⟩ := h'.last last hlast
    rw [r'.fresh.2.2.2, hmean', hmean]

/-- The exponential function meets the assumptions. -/
theorem expGain_real : ExpGain ℝ where
  zero := by
    show -(Real.exp (-0) - 1) = 0
    simp
  monotone := by
    intro x y hxy
    have hexp : Real.exp (-y) ≤ Real.exp (-x) := Real.exp_le_exp.mpr (by linarith)
    show -(Real.exp (-x) - 1) ≤ -(Real.exp (-y) - 1)
    linarith
  lt_one := by
    intro x
    have hpos := Real.exp_pos (-x)
    show -(Real.exp (-x) - 1) < 1
    linarith

/-- A window of two samples, and a filter. -/
noncomputable def filterTestConfig : GyroYawConfig ℝ :=
  { windowUs := 1, maxGapUs := 1, minSamples := 2, maxBias := 1, maxStddev := 1, lpfHz := 20 }

/-- The estimator after one sample at rest. -/
noncomputable def filterTestStart : GyroYaw ℝ :=
  { gyroYawBegin filterTestConfig with
    windowStartUs := 1, lastSampleUs := 1, samples := 1, sampleValid := true
    windowStarted := true }

/-- The second sample calibrates. -/
theorem filterTestStart_calibrates :
    ((⟨2, 0, true, true⟩ : GyroSample ℝ).observe filterTestStart).calibrated = true := by
  have hgap : ¬((2 : UInt64) ≤ 1 ∨ (1 : UInt64) < 2 - 1) := by decide
  have hfull : ¬(2 : UInt64) - 1 < 1 := by decide
  have hcount : ¬(1 : UInt32) + 1 < 2 ∧ (1 : UInt32) < 1 + 1 := by decide
  norm_num [GyroSample.observe, gyroYawObserve, gyroYawBegin, addToWindow, restartWindow,
    filterTestStart, filterTestConfig, windowRejected, filterRate, hgap, hfull, hcount]

/-- The report of the next sample, which turns. -/
noncomputable def filterTestReport : GyroReport ℝ where
  before := filterTestStart
  first := ⟨2, 0, true, true⟩
  samples := [⟨3, 1, true, false⟩]
  nowUs := 3
  rate := ((⟨3, 1, true, false⟩ : GyroSample ℝ).observe
    ((⟨2, 0, true, true⟩ : GyroSample ℝ).observe filterTestStart)).rate
  uncalibrated := rfl
  calibrates := filterTestStart_calibrates
  reported := gyroYawGet_good (s := ⟨3, 1, true, false⟩) filterTestStart_calibrates rfl

theorem filtered_rate_turn :
    ∃ block, GyroBlock 1 filterTestReport.history block ∧
      WeightedMean (blockWeights 20 block) (correctedRates filterTestReport.state.bias block)
        filterTestReport.rate := by
  obtain ⟨-, block, -, -, -, -, hblock, hmean, -⟩ := filtered_rate expGain_real filterTestReport
  exact ⟨block, hblock, hmean⟩
