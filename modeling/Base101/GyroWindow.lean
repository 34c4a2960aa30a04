/-
The calibration window of the gyro, over the reals.

The calls since `gyro_yaw_begin` are a list.  While the estimator is not
calibrated, its accumulators describe a window: the calls since the last gap,
motion or bad sample.

* `openWindow_run` — the accumulators are the count, the mean and the squared deviation of
  the open window, in every run that never fills the 32-bit counter;
* `gyro_calibration` — in such a run the bias comes from one genuine window, and is kept;
* `neverFull_of_windowUs` — windows shorter than 2³² - 1 µs never fill the counter;
* `gyro_calibration_lost` — a longer one does, and takes its bias from the last samples only.
-/
import Base101.GyroYaw
import Base101.Clock
import Base101.Welford

open Double Welford

/-- `gyro_yaw_begin`, then the calls in order. -/
noncomputable def gyroRun (cfg : GyroYawConfig ℝ) (calls : List (GyroSample ℝ)) : GyroYaw ℝ :=
  calls.foldl GyroSample.observe (gyroYawBegin cfg)

/-- The rates of a window. -/
def ratesOf (window : List (GyroSample ℝ)) : List ℝ := window.map (·.rawRate)

/-- A stationary window that supports `bias`. -/
structure GenuineWindow (cfg : GyroYawConfig ℝ) (window : List (GyroSample ℝ)) (bias : ℝ) :
    Prop where
  quiet : ∀ c ∈ window, c.valid = true ∧ c.stationary = true
  contiguous : window.IsChain (WithinGap cfg.maxGapUs)
  spanning : ∃ first last : GyroSample ℝ, window.head? = some first ∧ window.getLast? = some last ∧
    cfg.windowUs.toNat ≤ last.nowUs.toNat - first.nowUs.toNat
  enough : max 2 cfg.minSamples.toNat ≤ window.length
  mean : bias = (ratesOf window).sum / window.length
  bounded : |bias| ≤ cfg.maxBias
  variance : ((ratesOf window).map fun rate => (rate - bias) ^ 2).sum / (window.length - 1) ≤
    cfg.maxStddev ^ 2

/-- What calibration promises of a run. -/
structure GyroCalibration (cfg : GyroYawConfig ℝ) (calls : List (GyroSample ℝ)) : Prop where
  /-- The call that calibrates ends a genuine window. -/
  genuine (pre : List (GyroSample ℝ)) (c : GyroSample ℝ) (post : List (GyroSample ℝ)) :
    calls = pre ++ c :: post → (gyroRun cfg pre).calibrated = false →
    (gyroRun cfg (pre ++ [c])).calibrated = true →
    ∃ earlier window : List (GyroSample ℝ), pre ++ [c] = earlier ++ window ∧
      GenuineWindow cfg window (gyroRun cfg (pre ++ [c])).bias
  /-- The calibration and the bias are kept. -/
  kept (pre post : List (GyroSample ℝ)) :
    calls = pre ++ post → (gyroRun cfg pre).calibrated = true →
    (gyroRun cfg calls).calibrated = true ∧ (gyroRun cfg calls).bias = (gyroRun cfg pre).bias
  /-- No rate is reported before it. -/
  silent (pre post : List (GyroSample ℝ)) (nowUs : UInt64) : calls = pre ++ post →
    (gyroRun cfg pre).calibrated = false → gyroYawGet (gyroRun cfg pre) nowUs = none

/-- No call finds the counter of an open window at its last value. -/
def NeverFull (cfg : GyroYawConfig ℝ) (calls : List (GyroSample ℝ)) : Prop :=
  ∀ (pre : List (GyroSample ℝ)) (c : GyroSample ℝ) (post : List (GyroSample ℝ)),
    calls = pre ++ c :: post → (gyroRun cfg pre).calibrated = false →
    (gyroRun cfg pre).samples.toNat + 1 < 2 ^ 32

/-! ### The open window -/

/-- The accumulators of `g` are those of `window`. -/
structure Accumulated (g : GyroYaw ℝ) (window : List (GyroSample ℝ)) : Prop where
  quiet : ∀ c ∈ window, c.valid = true ∧ c.stationary = true
  contiguous : window.IsChain (WithinGap g.cfg.maxGapUs)
  started : g.windowStarted = !window.isEmpty
  start : ∀ first, window.head? = some first → g.windowStartUs = first.nowUs
  count : g.samples.toNat = window.length
  mean : g.mean = Welford.mean (ratesOf window)
  m2 : g.m2 = squaredDeviation (ratesOf window)

/-- And the last sample of `window` is the last one recorded. -/
structure OpenWindow (g : GyroYaw ℝ) (window : List (GyroSample ℝ)) : Prop
    extends Accumulated g window where
  last : ∀ last, window.getLast? = some last → g.sampleValid = true ∧ g.lastSampleUs = last.nowUs

variable {g : GyroYaw ℝ} {window : List (GyroSample ℝ)} {c : GyroSample ℝ} {cfg : GyroYawConfig ℝ}

@[simp] theorem ratesOf_nil : ratesOf [] = [] := rfl

@[simp] theorem length_ratesOf (window : List (GyroSample ℝ)) :
    (ratesOf window).length = window.length := List.length_map _

theorem ratesOf_concat (window : List (GyroSample ℝ)) (c : GyroSample ℝ) :
    ratesOf (window ++ [c]) = ratesOf window ++ [c.rawRate] := by
  rw [ratesOf, List.map_append, List.map_singleton]
  rfl

/-- A restarted window is empty, whatever the rest of the state. -/
theorem openWindow_restart (g : GyroYaw ℝ) : OpenWindow (restartWindow g) [] := by
  refine ⟨⟨?_, List.isChain_nil, rfl, ?_, rfl, ?_, ?_⟩, ?_⟩
  · intro c hc
    exact absurd hc (by simp)
  · intro first h
    exact absurd h (by simp)
  · rw [ratesOf_nil, mean_nil]
    rfl
  · rw [ratesOf_nil, squaredDeviation_nil]
    rfl
  · intro last h
    exact absurd h (by simp)

theorem openWindow_begin (cfg : GyroYawConfig ℝ) : OpenWindow (gyroYawBegin cfg) [] :=
  openWindow_restart (gyroYawBegin cfg)

/-- A quiet call that follows the window extends it. -/
theorem accumulated_add (h : Accumulated g window) (hroom : g.samples.toNat + 1 < 2 ^ 32)
    (hquiet : c.valid = true ∧ c.stationary = true)
    (hfollows : ∀ last, window.getLast? = some last → WithinGap g.cfg.maxGapUs last c) :
    Accumulated (addToWindow g c.nowUs c.rawRate) (window ++ [c]) := by
  obtain ⟨hsamples, hmean, hm2, hstarted, hstart, hcfg, -, -, -⟩ :=
    addToWindow_fields g c.nowUs c.rawRate
  have hcount : (g.samples + 1).toNat = window.length + 1 := by
    rw [UInt32.toNat_add, ← h.count]
    exact Nat.mod_eq_of_lt hroom
  have hmean' : (addToWindow g c.nowUs c.rawRate).mean = mean (ratesOf (window ++ [c])) := by
    rw [hmean, hcount, h.mean, ratesOf_concat, mean_concat, length_ratesOf]
  constructor
  case quiet =>
    intro d hd
    rcases List.mem_append.mp hd with hd | hd
    · exact h.quiet d hd
    · rw [List.mem_singleton] at hd
      subst hd
      exact hquiet
  case contiguous =>
    rw [hcfg, List.isChain_append]
    refine ⟨h.contiguous, List.isChain_singleton _, ?_⟩
    intro last hlast d hd
    obtain rfl : c = d := by simpa using hd
    exact hfollows last hlast
  case started => rw [hstarted]; simp
  case start =>
    intro first hfirst
    rw [hstart, h.started]
    rcases window with _ | ⟨d, ds⟩
    · -- the first sample opens the window
      obtain rfl : c = first := by simpa using hfirst
      rfl
    · obtain rfl : d = first := by simpa using hfirst
      exact h.start d rfl
  case count => rw [hsamples, hcount, List.length_append, List.length_singleton]
  case mean => exact hmean'
  case m2 =>
    rw [hm2, hmean', h.mean, h.m2, ratesOf_concat, squaredDeviation_concat]

/-- The window a quiet call ends: the open one, or a new one after a gap. -/
theorem openWindow_extended (h : OpenWindow g window)
    (hroom : g.samples.toNat + 1 < 2 ^ 32) (hquiet : c.valid = true ∧ c.stationary = true) :
    OpenWindow (extended g c) ((if afterGap g c then [] else window) ++ [c]) := by
  have hlast : ∀ b : GyroYaw ℝ, b.lastSampleUs = c.nowUs → b.sampleValid = true →
      ∀ W : List (GyroSample ℝ), ∀ last, (W ++ [c]).getLast? = some last →
      (addToWindow b c.nowUs c.rawRate).sampleValid = true ∧
        (addToWindow b c.nowUs c.rawRate).lastSampleUs = last.nowUs := by
    intro b htime hvalid W last hlast
    obtain ⟨-, -, -, -, -, -, htime', hvalid', -⟩ := addToWindow_fields b c.nowUs c.rawRate
    obtain rfl : c = last := by simpa using hlast
    exact ⟨by rw [hvalid', hvalid], by rw [htime', htime]⟩
  unfold extended
  by_cases hgap : afterGap g c = true
  · rw [if_pos hgap, if_pos hgap]
    have hempty : (restartWindow (recorded g c)).samples.toNat + 1 < 2 ^ 32 := by
      show (0 : UInt32).toNat + 1 < 2 ^ 32
      decide
    refine ⟨accumulated_add (openWindow_restart _).toAccumulated hempty hquiet ?_,
      hlast _ rfl rfl []⟩
    intro last h
    exact absurd h (by simp)
  · rw [if_neg hgap, if_neg hgap]
    rw [Bool.not_eq_true] at hgap
    have hrecorded : Accumulated (recorded g c) window :=
      ⟨h.quiet, h.contiguous, h.started, h.start, h.count, h.mean, h.m2⟩
    refine ⟨accumulated_add hrecorded hroom hquiet ?_, hlast _ rfl rfl window⟩
    intro last hwindow
    show WithinGap g.cfg.maxGapUs last c
    exact (afterGap_iff (h.last last hwindow).1 (h.last last hwindow).2).mp hgap

/-! ### One call -/

/-- A quiet call on a window that is full and passes the test. -/
theorem observe_accepted (hcal : g.calibrated = false)
    (hquiet : c.valid = true ∧ c.stationary = true)
    (hfull : ¬ c.nowUs - (extended g c).windowStartUs < g.cfg.windowUs)
    (htest : windowRejected (extended g c) = false) :
    GyroSample.observe g c = calibratedBy g c := by
  rw [observe_eq, isfinite_exact, Bool.and_true, extended_cfg]
  simp only [hcal, hquiet.1, hquiet.2, Bool.not_true, Bool.not_false, Bool.false_eq_true, if_false,
    if_true, if_neg hfull, htest]

/-- The call that calibrates: a quiet one, on a window that is full and passes the test. -/
theorem observe_calibrates (hcal : g.calibrated = false)
    (hnow : (GyroSample.observe g c).calibrated = true) :
    (c.valid = true ∧ c.stationary = true) ∧
      g.cfg.windowUs ≤ c.nowUs - (extended g c).windowStartUs ∧
      windowRejected (extended g c) = false ∧
      (GyroSample.observe g c).bias = (extended g c).mean := by
  have hext := extended_calibrated g c
  rw [observe_eq, isfinite_exact, Bool.and_true, extended_cfg, hcal] at hnow
  rw [hcal] at hext
  by_cases hvalid : c.valid = true
  swap
  · -- a restarted window keeps the flag
    simp [hvalid, restartWindow] at hnow
  by_cases hstationary : c.stationary = true
  swap
  · simp [hvalid, hstationary, restartWindow, recorded, hcal] at hnow
  by_cases hopen : c.nowUs - (extended g c).windowStartUs < g.cfg.windowUs
  · simp [hvalid, hstationary, hopen, hext] at hnow
  by_cases hrejected : windowRejected (extended g c) = true
  · simp [hvalid, hstationary, hopen, hrejected, restartWindow, hext] at hnow
  rw [Bool.not_eq_true] at hrejected
  refine ⟨⟨hvalid, hstationary⟩, UInt64.not_lt.mp hopen, hrejected, ?_⟩
  rw [observe_accepted hcal ⟨hvalid, hstationary⟩ hopen hrejected]
  rfl

/-- While the estimator is not calibrated, a call leaves a window open that it ends, or none. -/
theorem observe_openWindow (h : OpenWindow g window) (hcal : g.calibrated = false)
    (hroom : g.samples.toNat + 1 < 2 ^ 32)
    (hnow : (GyroSample.observe g c).calibrated = false) :
    ∃ keep : List (GyroSample ℝ), keep <:+ window ++ [c] ∧
      OpenWindow (GyroSample.observe g c) keep ∧
      (keep = [] ∨ keep.getLast? = some c ∧
        c.nowUs - (GyroSample.observe g c).windowStartUs < g.cfg.windowUs) := by
  rw [observe_eq, isfinite_exact, Bool.and_true] at hnow ⊢
  rw [hcal] at hnow ⊢
  by_cases hvalid : c.valid = true
  swap
  · rw [Bool.not_eq_true] at hvalid
    refine ⟨[], List.nil_suffix, ?_, .inl rfl⟩
    simp only [hvalid, Bool.not_false, if_true]
    exact openWindow_restart _
  by_cases hstationary : c.stationary = true
  swap
  · rw [Bool.not_eq_true] at hstationary
    refine ⟨[], List.nil_suffix, ?_, .inl rfl⟩
    simp only [hvalid, hstationary, Bool.not_true, Bool.not_false, Bool.false_eq_true, if_false,
      if_true]
    exact openWindow_restart _
  simp only [hvalid, hstationary, Bool.not_true, Bool.not_false, Bool.false_eq_true, if_false,
    if_true] at hnow ⊢
  by_cases hopen : c.nowUs - (extended g c).windowStartUs < (extended g c).cfg.windowUs
  · rw [if_pos hopen]
    rw [extended_cfg] at hopen
    refine ⟨_, ?_, openWindow_extended h hroom ⟨hvalid, hstationary⟩, .inr ⟨by simp, hopen⟩⟩
    split_ifs
    · exact List.suffix_append _ _
    · exact List.suffix_refl _
  rw [if_neg hopen] at hnow ⊢
  by_cases hrejected : windowRejected (extended g c) = true
  · rw [if_pos hrejected]
    exact ⟨[], List.nil_suffix, openWindow_restart _, .inl rfl⟩
  · rw [if_neg hrejected] at hnow
    exact absurd hnow (by simp [calibratedBy, filterRate])

/-- A calibrated estimator keeps its bias. -/
theorem observe_keeps (hcal : g.calibrated = true) :
    (GyroSample.observe g c).calibrated = true ∧ (GyroSample.observe g c).bias = g.bias := by
  rw [observe_eq, isfinite_exact, Bool.and_true, hcal]
  by_cases hvalid : c.valid = true
  · simp [hvalid, filterRate, recorded, hcal]
  · simp [hvalid]

theorem observe_cfg (g : GyroYaw ℝ) (c : GyroSample ℝ) : (GyroSample.observe g c).cfg = g.cfg := by
  have hext := extended_cfg g c
  rw [observe_eq, isfinite_exact, Bool.and_true]
  split_ifs <;> simp [restartWindow, recorded, calibratedBy, filterRate, hext]

/-! ### The window that calibrates -/

/-- A window without gaps takes at least a microsecond per step. -/
theorem length_le_of_isChain {first last : GyroSample ℝ}
    (hchain : window.IsChain (WithinGap cfg.maxGapUs)) (hfirst : window.head? = some first)
    (hlast : window.getLast? = some last) :
    first.nowUs.toNat + window.length ≤ last.nowUs.toNat + 1 := by
  induction window generalizing first with
  | nil => exact absurd hfirst (by simp)
  | cons d ds ih =>
    obtain rfl : d = first := by simpa using hfirst
    rcases ds with _ | ⟨e, es⟩
    · obtain rfl : d = last := by simpa using hlast
      simp
    · obtain ⟨hnext, hrest⟩ := List.isChain_cons_cons.mp hchain
      have hlen := ih hrest rfl (by simpa using hlast)
      have hlater := hnext.1
      rw [List.length_cons]
      omega

/-- The test of a full window, over the reals. -/
theorem windowRejected_eq_false (h : windowRejected g = false) :
    g.cfg.minSamples.toNat ≤ g.samples.toNat ∧ 1 < g.samples.toNat ∧ |g.mean| ≤ g.cfg.maxBias ∧
      g.m2 / ((g.samples.toNat : ℝ) - 1) ≤ g.cfg.maxStddev ^ 2 := by
  unfold windowRejected at h
  simp only [Bool.or_eq_false_iff, decide_eq_false_iff_not, Bool.not_eq_false', decide_eq_true_eq,
    fabs_exact] at h
  obtain ⟨⟨⟨hmin, hbias⟩, hone⟩, hdev⟩ := h
  have hone' : 1 < g.samples.toNat := UInt32.lt_iff_toNat_lt.mp hone
  have hsub : (g.samples - 1).toNat = g.samples.toNat - 1 :=
    UInt32.toNat_sub_of_le _ _ (UInt32.le_of_lt hone)
  have hroot : √(g.m2 / ((g.samples - 1).toNat : ℝ)) ≤ g.cfg.maxStddev := not_lt.mp hdev
  rw [Real.sqrt_le_iff, hsub, Nat.cast_sub (Nat.le_of_lt hone'), Nat.cast_one] at hroot
  exact ⟨UInt32.le_iff_toNat_le.mp (UInt32.not_lt.mp hmin), hone', not_lt.mp hbias, hroot.2⟩

/-- A full window that passes the test is genuine. -/
theorem OpenWindow.genuine (h : OpenWindow g (window ++ [c]))
    (helapsed : g.cfg.windowUs ≤ c.nowUs - g.windowStartUs) (htest : windowRejected g = false) :
    GenuineWindow g.cfg (window ++ [c]) g.mean := by
  obtain ⟨hmin, hone, hbias, hvariance⟩ := windowRejected_eq_false htest
  rw [h.count] at hmin hone hvariance
  have hlast : (window ++ [c]).getLast? = some c := by simp
  obtain ⟨first, hfirst⟩ : ∃ first, (window ++ [c]).head? = some first := by
    rcases window with _ | ⟨d, ds⟩
    · exact ⟨c, rfl⟩
    · exact ⟨d, rfl⟩
  have hmean : g.mean = (ratesOf (window ++ [c])).sum / (window ++ [c]).length := by
    rw [h.mean, Welford.mean, length_ratesOf]
  constructor
  case quiet => exact h.quiet
  case contiguous => exact h.contiguous
  case spanning =>
    have hlen := length_le_of_isChain h.contiguous hfirst hlast
    have hle : first.nowUs ≤ c.nowUs := by
      rw [UInt64.le_iff_toNat_le]
      omega
    rw [h.start first hfirst, UInt64.le_iff_toNat_le, UInt64.toNat_sub_of_le _ _ hle] at helapsed
    exact ⟨first, c, hfirst, hlast, helapsed⟩
  case enough => exact max_le hone hmin
  case mean => exact hmean
  case bounded => exact hbias
  case variance =>
    rw [h.m2, squaredDeviation, ← h.mean] at hvariance
    exact hvariance

/-! ### Runs -/

@[simp] theorem gyroRun_concat (cfg : GyroYawConfig ℝ) (calls : List (GyroSample ℝ))
    (c : GyroSample ℝ) :
    gyroRun cfg (calls ++ [c]) = GyroSample.observe (gyroRun cfg calls) c := by
  rw [gyroRun, List.foldl_append]
  rfl

theorem gyroRun_cfg (cfg : GyroYawConfig ℝ) (calls : List (GyroSample ℝ)) :
    (gyroRun cfg calls).cfg = cfg := by
  induction calls using List.reverseRecOn with
  | nil => rfl
  | append_singleton calls c ih => rw [gyroRun_concat, observe_cfg, ih]

theorem NeverFull.of_append {pre post : List (GyroSample ℝ)} (h : NeverFull cfg (pre ++ post)) :
    NeverFull cfg pre := by
  intro pre' c post' hsplit
  exact h pre' c (post' ++ post) (by rw [hsplit, List.append_assoc, List.cons_append])

/-- While the estimator is not calibrated, its window is one of the latest calls. -/
theorem openWindow_run (calls : List (GyroSample ℝ)) (hfull : NeverFull cfg calls)
    (hcal : (gyroRun cfg calls).calibrated = false) :
    ∃ window, window <:+ calls ∧ OpenWindow (gyroRun cfg calls) window := by
  induction calls using List.reverseRecOn with
  | nil => exact ⟨[], List.suffix_refl _, openWindow_begin cfg⟩
  | append_singleton calls c ih =>
    rw [gyroRun_concat] at hcal ⊢
    have hbefore : (gyroRun cfg calls).calibrated = false := by
      by_contra hne
      rw [Bool.not_eq_false] at hne
      rw [(observe_keeps hne).1] at hcal
      exact absurd hcal (by simp)
    obtain ⟨window, hsuffix, hopen⟩ := ih hfull.of_append hbefore
    have hroom := hfull calls c [] rfl hbefore
    obtain ⟨keep, hkeep, hopen', -⟩ := observe_openWindow hopen hbefore hroom hcal
    refine ⟨keep, hkeep.trans ?_, hopen'⟩
    obtain ⟨earlier, hearlier⟩ := hsuffix
    exact ⟨earlier, by rw [← hearlier, List.append_assoc]⟩

theorem gyroRun_keeps (pre post : List (GyroSample ℝ))
    (hcal : (gyroRun cfg pre).calibrated = true) :
    (gyroRun cfg (pre ++ post)).calibrated = true ∧
      (gyroRun cfg (pre ++ post)).bias = (gyroRun cfg pre).bias := by
  induction post using List.reverseRecOn with
  | nil =>
    rw [List.append_nil]
    exact ⟨hcal, rfl⟩
  | append_singleton post c ih =>
    obtain ⟨hcal', hbias⟩ := ih
    obtain ⟨hcal'', hbias'⟩ := observe_keeps (c := c) hcal'
    rw [← List.append_assoc, gyroRun_concat]
    exact ⟨hcal'', hbias'.trans hbias⟩

/-! ### Short windows -/

/-- A window still open has at most one sample per microsecond of the time it needs. -/
theorem OpenWindow.samples_le (h : OpenWindow g window)
    (hopen : window = [] ∨ window.getLast? = some c ∧
      c.nowUs - g.windowStartUs < g.cfg.windowUs) :
    g.samples.toNat ≤ g.cfg.windowUs.toNat := by
  rw [h.count]
  rcases hopen with rfl | ⟨hlast, hshort⟩
  · exact Nat.zero_le _
  · rcases window with _ | ⟨first, rest⟩
    · exact absurd hlast (by simp)
    have hlen := length_le_of_isChain h.contiguous rfl hlast
    have hle : first.nowUs ≤ c.nowUs := by
      rw [UInt64.le_iff_toNat_le]
      rw [List.length_cons] at hlen
      omega
    rw [h.start first rfl, UInt64.lt_iff_toNat_lt, UInt64.toNat_sub_of_le _ _ hle] at hshort
    rw [UInt64.le_iff_toNat_le] at hle
    omega

/-- While the estimator is not calibrated, a short window leaves room in the counter. -/
theorem samples_le_of_windowUs (hcfg : cfg.windowUs.toNat + 1 < 2 ^ 32)
    (calls : List (GyroSample ℝ)) (hcal : (gyroRun cfg calls).calibrated = false) :
    (gyroRun cfg calls).samples.toNat ≤ cfg.windowUs.toNat ∧
      ∃ window, OpenWindow (gyroRun cfg calls) window := by
  induction calls using List.reverseRecOn with
  | nil => exact ⟨Nat.zero_le _, [], openWindow_begin cfg⟩
  | append_singleton calls c ih =>
    rw [gyroRun_concat] at hcal ⊢
    have hbefore : (gyroRun cfg calls).calibrated = false := by
      by_contra hne
      rw [Bool.not_eq_false] at hne
      rw [(observe_keeps hne).1] at hcal
      exact absurd hcal (by simp)
    obtain ⟨hsamples, window, hopen⟩ := ih hbefore
    obtain ⟨keep, -, hopen', hkeep⟩ := observe_openWindow hopen hbefore (by omega) hcal
    rw [← observe_cfg] at hkeep
    have hle := hopen'.samples_le hkeep
    rw [observe_cfg, gyroRun_cfg] at hle
    exact ⟨hle, keep, hopen'⟩

/-- Windows shorter than 2³² - 1 µs never fill the counter, whatever the calls. -/
theorem neverFull_of_windowUs (hcfg : cfg.windowUs.toNat + 1 < 2 ^ 32)
    (calls : List (GyroSample ℝ)) : NeverFull cfg calls := by
  intro pre c post _ hcal
  have hle := (samples_le_of_windowUs hcfg pre hcal).1
  omega

/-! ### Steady samples -/

/-- A window of `windowUs`, with a sample due every microsecond. -/
def steadyConfig (windowUs : UInt64) : GyroYawConfig ℝ :=
  { windowUs, maxGapUs := 1, minSamples := 2, maxBias := 2, maxStddev := 1, lpfHz := 0 }

/-- The `i`-th call, one microsecond after the one before it. -/
def callAt (rawRate : ℝ) (i : ℕ) : GyroSample ℝ :=
  { nowUs := .ofNat (i + 1), rawRate, valid := true, stationary := true }

/-- `n` samples of rate zero. -/
def restCalls (n : ℕ) : List (GyroSample ℝ) := (List.range n).map (callAt 0)

theorem restCalls_succ (n : ℕ) : restCalls (n + 1) = restCalls n ++ [callAt 0 n] := by
  rw [restCalls, List.range_succ, List.map_append]
  rfl

/-- The estimator after samples 1 to `lastUs`, with `samples` in the counter. -/
def steadyState (windowUs : UInt64) (lastUs : ℕ) (samples : UInt32) (mean : ℝ) : GyroYaw ℝ :=
  { cfg := steadyConfig windowUs, windowStartUs := 1, lastSampleUs := .ofNat lastUs, samples
    rejectedWindows := 0, mean, m2 := 0, bias := 0, rate := 0, calibrated := false
    sampleValid := true, windowStarted := true }

/-- The mean after one more sample. -/
noncomputable def nextMean (samples : UInt32) (mean rate : ℝ) : ℝ :=
  mean + (rate - mean) / ((samples + 1).toNat : ℝ)

theorem nextMean_self (samples : UInt32) (mean : ℝ) : nextMean samples mean mean = mean := by
  rw [nextMean, sub_self, zero_div, add_zero]

theorem toNat_ofNat_of_small {n : ℕ} (h : n ≤ 4294967298) : (UInt64.ofNat n).toNat = n :=
  UInt64.toNat_ofNat_of_lt' (Nat.lt_of_le_of_lt h (by decide))

section Steady

variable {windowUs : UInt64} {n : ℕ} {samples : UInt32} {mean rate : ℝ}

/-- One more microsecond is no gap. -/
theorem afterGap_steadyState (hn : n < 4294967298) :
    afterGap (steadyState windowUs n samples mean) (callAt rate n) = false := by
  have hlast := toNat_ofNat_of_small (Nat.le_of_lt hn)
  have hnow := toNat_ofNat_of_small (n := n + 1) hn
  have hlater : UInt64.ofNat n < UInt64.ofNat (n + 1) := by
    rw [UInt64.lt_iff_toNat_lt, hlast, hnow]
    omega
  have hgap : UInt64.ofNat (n + 1) - UInt64.ofNat n ≤ 1 := by
    rw [UInt64.le_iff_toNat_le, UInt64.toNat_sub_of_le _ _ (UInt64.le_of_lt hlater), hlast, hnow]
    show n + 1 - n ≤ 1
    omega
  simp only [afterGap, Bool.or_eq_false_iff, decide_eq_false_iff_not]
  exact ⟨⟨rfl, UInt64.not_le.mpr hlater⟩, UInt64.not_lt.mpr hgap⟩

/-- A sample that leaves the squared deviation at zero. -/
theorem extended_steadyState (hn : n < 4294967298)
    (hm2 : (rate - mean) * (rate - nextMean samples mean rate) = 0) :
    extended (steadyState windowUs n samples mean) (callAt rate n) =
      steadyState windowUs (n + 1) (samples + 1) (nextMean samples mean rate) := by
  rw [extended, afterGap_steadyState hn]
  show ({ steadyState windowUs (n + 1) (samples + 1) (nextMean samples mean rate)
    with m2 := 0 + (rate - mean) * (rate - nextMean samples mean rate) } : GyroYaw ℝ) = _
  rw [hm2, add_zero]
  rfl

/-- The time since the first sample. -/
theorem elapsed_callAt (hn : n < 4294967298) :
    ((callAt rate n).nowUs - (1 : UInt64)).toNat = n := by
  have hnow : (callAt rate n).nowUs.toNat = n + 1 := toNat_ofNat_of_small hn
  have hle : (1 : UInt64) ≤ (callAt rate n).nowUs := by
    rw [UInt64.le_iff_toNat_le, hnow]
    show 1 ≤ n + 1
    omega
  rw [UInt64.toNat_sub_of_le _ _ hle, hnow]
  show n + 1 - 1 = n
  omega

/-- Such a sample, while the window is open. -/
theorem observe_steadyState (hn : n < 4294967298) (hshort : n < windowUs.toNat)
    (hm2 : (rate - mean) * (rate - nextMean samples mean rate) = 0) :
    GyroSample.observe (steadyState windowUs n samples mean) (callAt rate n) =
      steadyState windowUs (n + 1) (samples + 1) (nextMean samples mean rate) := by
  have hopen : (callAt rate n).nowUs - (1 : UInt64) < windowUs := by
    rw [UInt64.lt_iff_toNat_lt, elapsed_callAt hn]
    exact hshort
  rw [observe_eq, isfinite_exact, Bool.and_true, extended_steadyState hn hm2]
  show (if (callAt rate n).nowUs - (1 : UInt64) < windowUs then _ else _) = _
  rw [if_pos hopen]

/-- And when it fills the window. -/
theorem observe_steadyState_full (hn : n < 4294967298) (hfull : windowUs.toNat ≤ n)
    (hm2 : (rate - mean) * (rate - nextMean samples mean rate) = 0)
    (htwo : 2 ≤ samples + 1) (hbias : |nextMean samples mean rate| ≤ 2) :
    (GyroSample.observe (steadyState windowUs n samples mean) (callAt rate n)).calibrated = true ∧
      (GyroSample.observe (steadyState windowUs n samples mean) (callAt rate n)).bias =
        nextMean samples mean rate := by
  have hext := @extended_steadyState windowUs n samples mean rate hn hm2
  have htest : windowRejected (extended (steadyState windowUs n samples mean) (callAt rate n)) =
      false := by
    have hone : 1 < samples + 1 := by
      rw [UInt32.le_iff_toNat_le] at htwo
      rw [UInt32.lt_iff_toNat_lt]
      exact htwo
    have hdev : ¬ (1 : ℝ) < √(0 / ((samples + 1 - 1).toNat : ℝ)) := by
      rw [zero_div, Real.sqrt_zero]
      norm_num
    rw [hext]
    show (decide (samples + 1 < 2) || decide (2 < |nextMean samples mean rate|) ||
      !decide (1 < samples + 1) ||
      decide ((1 : ℝ) < √(0 / ((samples + 1 - 1).toNat : ℝ)))) = false
    rw [decide_eq_false (UInt32.not_lt.mpr htwo), decide_eq_false (not_lt.mpr hbias),
      decide_eq_true hone, decide_eq_false hdev]
    rfl
  have hfull' : ¬ (callAt rate n).nowUs - (extended (steadyState windowUs n samples mean)
      (callAt rate n)).windowStartUs < (steadyState windowUs n samples mean).cfg.windowUs := by
    rw [hext]
    show ¬ (callAt rate n).nowUs - (1 : UInt64) < windowUs
    rw [UInt64.lt_iff_toNat_lt, elapsed_callAt hn]
    omega
  rw [observe_accepted rfl ⟨rfl, rfl⟩ hfull' htest, calibratedBy, hext]
  exact ⟨rfl, rfl⟩

end Steady

/-- The estimator after `n` samples of rate zero. -/
theorem gyroRun_restCalls (windowUs : UInt64) {n : ℕ} (hpos : 1 ≤ n) (hn : n ≤ 4294967296)
    (hshort : n ≤ windowUs.toNat) :
    gyroRun (steadyConfig windowUs) (restCalls n) = steadyState windowUs n (.ofNat n) 0 := by
  induction n, hpos using Nat.le_induction with
  | base =>
    -- the first call finds no sample before it, and opens the window
    have hext : extended (gyroYawBegin (steadyConfig windowUs)) (callAt 0 0) =
        steadyState windowUs 1 1 0 := by
      show ({ steadyState windowUs 1 1 (nextMean 0 0 0) with
        m2 := 0 + (0 - 0) * (0 - nextMean 0 0 0) } : GyroYaw ℝ) = _
      rw [nextMean_self, sub_self, mul_zero, add_zero]
      rfl
    have hopen : (callAt 0 0).nowUs - (1 : UInt64) < windowUs := by
      rw [UInt64.lt_iff_toNat_lt, elapsed_callAt (by omega)]
      exact hshort
    rw [restCalls_succ, gyroRun_concat]
    show GyroSample.observe (gyroYawBegin (steadyConfig windowUs)) (callAt 0 0) = _
    rw [observe_eq, isfinite_exact, Bool.and_true, hext]
    show (if (callAt 0 0).nowUs - (1 : UInt64) < windowUs then _ else _) = _
    rw [if_pos hopen]
    rfl
  | succ n hpos ih =>
    have hm2 : ((0 : ℝ) - 0) * (0 - nextMean (.ofNat n) 0 0) = 0 := by rw [sub_self, zero_mul]
    rw [restCalls_succ, gyroRun_concat, ih (by omega) (by omega),
      observe_steadyState (by omega) (by omega) hm2, nextMean_self, UInt32.ofNat_add]
    rfl

/-! ### Every run -/

/-- **Calibration comes from one genuine stationary window, and is kept**, in every run whose
counter never fills. -/
theorem gyro_calibration (cfg : GyroYawConfig ℝ) (calls : List (GyroSample ℝ))
    (hfull : NeverFull cfg calls) : GyroCalibration cfg calls := by
  constructor
  case genuine =>
    intro pre c post hcalls hbefore hafter
    rw [gyroRun_concat] at hafter ⊢
    rw [hcalls] at hfull
    obtain ⟨window, hsuffix, hopen⟩ := openWindow_run pre hfull.of_append hbefore
    have hroom := hfull pre c post rfl hbefore
    obtain ⟨hquiet, helapsed, htest, hbias⟩ := observe_calibrates hbefore hafter
    have hext := openWindow_extended hopen hroom hquiet
    rw [← extended_cfg (gyroRun cfg pre) c] at helapsed
    have hgenuine := hext.genuine helapsed htest
    rw [extended_cfg, gyroRun_cfg, ← hbias] at hgenuine
    obtain ⟨earlier, hearlier⟩ := hsuffix
    by_cases hgap : afterGap (gyroRun cfg pre) c = true
    · rw [if_pos hgap] at hgenuine
      exact ⟨pre, _, rfl, hgenuine⟩
    · rw [if_neg hgap] at hgenuine
      exact ⟨earlier, _, by rw [← hearlier, List.append_assoc], hgenuine⟩
  case kept =>
    intro pre post hcalls hcal
    rw [hcalls]
    exact gyroRun_keeps pre post hcal
  case silent =>
    intro pre post nowUs _ hcal
    by_contra hsome
    obtain ⟨rate, hrate⟩ := Option.ne_none_iff_exists'.mp hsome
    rw [calibrated_of_gyroYawGet hrate] at hcal
    exact absurd hcal (by simp)

/-- Three calls a microsecond apart, with rates that vary about one. -/
def variedCalls : List (GyroSample ℝ) :=
  [⟨1, 0, true, true⟩, ⟨2, 2, true, true⟩, ⟨3, 1, true, true⟩]

/-- They fill a window of two microseconds, and calibrate with bias one. -/
theorem gyro_calibration_varied :
    (gyroRun (steadyConfig 2) variedCalls).calibrated = true ∧
      (gyroRun (steadyConfig 2) variedCalls).bias = 1 ∧
      GyroCalibration (steadyConfig 2) variedCalls := by
  have hgap : ¬((2 : UInt64) ≤ 1 ∨ (1 : UInt64) < 2 - 1) ∧
      ¬((3 : UInt64) ≤ 2 ∨ (1 : UInt64) < 3 - 2) := by decide
  have hopen : (0 : UInt64) < 2 ∧ (2 : UInt64) - 1 < 2 ∧ ¬(3 : UInt64) - 1 < 2 := by decide
  have hcount : (1 : UInt32).toNat = 1 ∧ (1 + 1 : UInt32).toNat = 2 ∧
      (1 + 1 + 1 : UInt32).toNat = 3 ∧ ¬(1 + 1 + 1 : UInt32) < 2 ∧ (1 : UInt32) < 1 + 1 + 1 := by
    decide
  have hrun : (gyroRun (steadyConfig 2) variedCalls).calibrated = true ∧
      (gyroRun (steadyConfig 2) variedCalls).bias = 1 := by
    norm_num [gyroRun, variedCalls, GyroSample.observe, gyroYawObserve, gyroYawBegin, addToWindow,
      restartWindow, steadyConfig, windowRejected, filterRate, hgap, hopen, hcount]
  exact ⟨hrun.1, hrun.2, gyro_calibration _ _ (neverFull_of_windowUs (by decide) _)⟩

/-! ### A window that fills the counter -/

/-- 2³² samples of rate zero, and two of rate one. -/
def longCalls : List (GyroSample ℝ) :=
  restCalls 4294967296 ++ [callAt 1 4294967296] ++ [callAt 1 4294967297]

/-- A window of 2³² + 1 µs. -/
def longConfig : GyroYawConfig ℝ := steadyConfig 4294967297

/-- The counter wraps, and counts the next sample as the first. -/
theorem gyroRun_wrapped : gyroRun longConfig (restCalls 4294967296 ++ [callAt 1 4294967296]) =
    steadyState 4294967297 4294967297 1 1 := by
  have hwrap : UInt32.ofNat 4294967296 = 0 := by decide
  have hmean : nextMean 0 0 1 = 1 := by
    show (0 : ℝ) + (1 - 0) / ((1 : ℕ) : ℝ) = 1
    norm_num
  have hrun := gyroRun_restCalls 4294967297 (n := 4294967296) (by omega) (by omega)
    (by decide)
  rw [hwrap] at hrun
  have hm2 : ((1 : ℝ) - 0) * (1 - nextMean 0 0 1) = 0 := by rw [hmean, sub_self, mul_zero]
  rw [gyroRun_concat, longConfig, hrun, observe_steadyState (by omega) (by decide) hm2, hmean]
  rfl

/-- The window passes its test on the last two samples. -/
theorem longCalls_calibrates : (gyroRun longConfig longCalls).calibrated = true ∧
    (gyroRun longConfig longCalls).bias = 1 := by
  have hmean := nextMean_self 1 1
  have hfull := @observe_steadyState_full 4294967297 4294967297 1 1 1 (by omega) (by decide)
    (by rw [sub_self, zero_mul]) (by decide) (by rw [hmean]; norm_num)
  rw [hmean] at hfull
  rw [longCalls, gyroRun_concat, gyroRun_wrapped]
  exact hfull

/-- The samples of rate one are the last two. -/
theorem longCalls_mem {c : GyroSample ℝ} (hc : c ∈ longCalls) : c.nowUs.toNat ≤ 4294967298 ∧
    c.rawRate ≤ 1 ∧ (c.nowUs.toNat ≤ 1 → c.rawRate = 0) := by
  have hlate : ∀ i, i < 4294967298 → (callAt 1 i).nowUs.toNat = i + 1 := fun i hi =>
    toNat_ofNat_of_small hi
  rcases List.mem_append.mp hc with hc | hc
  · rcases List.mem_append.mp hc with hc | hc
    · obtain ⟨i, hi, rfl⟩ := List.mem_map.mp hc
      have hnow : (callAt 0 i).nowUs.toNat = i + 1 :=
        toNat_ofNat_of_small (by rw [List.mem_range] at hi; omega)
      rw [List.mem_range] at hi
      exact ⟨by omega, zero_le_one, fun _ => rfl⟩
    · rw [List.mem_singleton] at hc
      subst hc
      rw [hlate _ (by omega)]
      exact ⟨by omega, le_refl _, fun h => by omega⟩
  · rw [List.mem_singleton] at hc
    subst hc
    rw [hlate _ (by omega)]
    exact ⟨by omega, le_refl _, fun h => by omega⟩

/-- **The claimed origin of the bias fails once the counter wraps**: the bias is the mean of the
last two samples, and the only window long enough holds all of them.  At the wrap the mean is
divided by the counter, and `0 / 0` is zero here; in doubles it is a NaN, which both tests of
the window let through and which becomes the bias, so the mean of no window either. -/
theorem gyro_calibration_lost : ¬ GyroCalibration longConfig longCalls := by
  intro h
  obtain ⟨hcal, hbias⟩ := longCalls_calibrates
  have hsplit : longCalls = (restCalls 4294967296 ++ [callAt 1 4294967296]) ++
      callAt 1 4294967297 :: [] := rfl
  have hbefore : (gyroRun longConfig
      (restCalls 4294967296 ++ [callAt 1 4294967296])).calibrated = false := by
    rw [gyroRun_wrapped]
    rfl
  obtain ⟨earlier, window, hcalls, hgenuine⟩ := h.genuine _ _ _ hsplit hbefore hcal
  rw [← hsplit, hbias] at hgenuine
  have hsub : ∀ c ∈ window, c ∈ longCalls := by
    intro c hc
    rw [hsplit, show (restCalls 4294967296 ++ [callAt 1 4294967296]) ++ callAt 1 4294967297 :: [] =
      earlier ++ window from hcalls]
    exact List.mem_append_right _ hc
  -- a window of the required length starts at the first sample
  obtain ⟨first, last, hfirst, hlast, hspan⟩ := hgenuine.spanning
  have hlastMem := (longCalls_mem (hsub last (List.mem_of_getLast? hlast))).1
  obtain ⟨rest, rfl⟩ : ∃ rest, window = first :: rest := by
    rcases window with _ | ⟨d, ds⟩
    · exact absurd hfirst (by simp)
    · exact ⟨ds, by rw [Option.some.inj hfirst]⟩
  have hzero : first.rawRate = 0 := by
    apply (longCalls_mem (hsub first List.mem_cons_self)).2.2
    change 4294967297 ≤ _ at hspan
    omega
  -- so its mean is below one
  have hsum : (ratesOf rest).sum ≤ rest.length := by
    have hle := List.sum_le_card_nsmul (ratesOf rest) 1 (by
      intro rate hrate
      obtain ⟨c, hc, rfl⟩ := List.mem_map.mp hrate
      exact (longCalls_mem (hsub c (List.mem_cons_of_mem _ hc))).2.1)
    rw [length_ratesOf, nsmul_one] at hle
    exact hle
  have hmean := hgenuine.mean
  have hpos : (0 : ℝ) < (first :: rest).length := by
    rw [List.length_cons]
    positivity
  rw [eq_div_iff hpos.ne', one_mul, ratesOf, List.map_cons, List.sum_cons, hzero, zero_add,
    List.length_cons] at hmean
  rw [ratesOf, ← hmean] at hsum
  push_cast at hsum
  linarith
