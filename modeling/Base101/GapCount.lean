/-
The gap counter of a measurement (`calibration_metrics.c`), over an exact field.

A call interrupts the measurement if its sample is invalid, or if an earlier sample was
valid and the call ends no interval.  `gaps` counts the interruptions, and a measurement
without one is gapless: its intervals are all the successive pairs of its calls, so what
is integrated covers the whole span.  Both counters have 32 bits.

* `MetricsCounts` — what the counters of a measurement count, and what has elapsed;
* `interruptions_eq_zero` — the measurements without an interruption;
* `gap_count_iff` — when a gap count of zero means a gapless measurement.
-/
import Base101.SkidRatio

open Double

variable {K : Type} [Field K] [LinearOrder K]

/-! ### Interruptions -/

/-- Seconds from one call to the next. -/
def stepSeconds (pair : MetricsCall K × MetricsCall K) : K :=
  ((pair.2.now.toNat : K) - (pair.1.now.toNat : K)) / 1e6

/-- Every sample is valid, and follows the one before it by at most 50 ms. -/
structure Gapless (calls : List (MetricsCall K)) : Prop where
  valid : ∀ c ∈ calls, c.sample.valid = true
  steps : ∀ p ∈ calls.successive, 0 < stepSeconds p ∧ stepSeconds p ≤ 0.05

/-- The call interrupts the measurement so far. -/
def Interrupts (before : List (MetricsCall K)) (c : MetricsCall K) : Prop :=
  c.sample.valid = false ∨
    (∃ b ∈ before, b.sample.valid = true) ∧ ∀ last ∈ before.getLast?, ¬MetricsInterval (last, c)

instance (before : List (MetricsCall K)) : DecidablePred (Interrupts before) :=
  fun _ => inferInstanceAs (Decidable (_ ∨ _ ∧ _))

/-- How many of the calls interrupt the measurement that `before` began. -/
def interruptions (before : List (MetricsCall K)) : List (MetricsCall K) → ℕ
  | [] => 0
  | c :: calls => (if Interrupts before c then 1 else 0) + interruptions (before ++ [c]) calls

theorem interruptions_concat (before calls : List (MetricsCall K)) (c : MetricsCall K) :
    interruptions before (calls ++ [c]) =
      interruptions before calls + if Interrupts (before ++ calls) c then 1 else 0 := by
  induction calls generalizing before with
  | nil => simp [interruptions]
  | cons d calls ih =>
    rw [List.cons_append, interruptions, interruptions, ih]
    rw [List.append_assoc, List.singleton_append, Nat.add_assoc]

theorem interruptions_le_length (before calls : List (MetricsCall K)) :
    interruptions before calls ≤ calls.length := by
  induction calls generalizing before with
  | nil => exact le_refl 0
  | cons c calls ih =>
    have hrest := ih (before ++ [c])
    rw [interruptions, List.length_cons]
    split <;> omega

variable {calls : List (MetricsCall K)} {c : MetricsCall K}

theorem gapless_nil : Gapless ([] : List (MetricsCall K)) :=
  ⟨by simp, by simp⟩

/-- One more call. -/
theorem gapless_concat : Gapless (calls ++ [c]) ↔ Gapless calls ∧ c.sample.valid = true ∧
    ∀ last ∈ calls.getLast?, 0 < stepSeconds (last, c) ∧ stepSeconds (last, c) ≤ 0.05 := by
  have hpairs : ∀ p, p ∈ (calls ++ [c]).successive ↔
      p ∈ calls.successive ∨ ∃ last ∈ calls.getLast?, p = (last, c) := by
    intro p
    rcases List.eq_nil_or_concat calls with rfl | ⟨earlier, last, rfl⟩
    · simp
    · rw [List.concat_eq_append, List.successive_concat, List.getLast?_concat]
      simp
  constructor
  · intro h
    refine ⟨⟨fun d hd => h.valid d (List.mem_append_left _ hd), fun p hp => ?_⟩, ?_, ?_⟩
    · exact h.steps p ((hpairs p).mpr (.inl hp))
    · exact h.valid c (List.mem_append_right _ List.mem_cons_self)
    · intro last hlast
      exact h.steps _ ((hpairs _).mpr (.inr ⟨last, hlast, rfl⟩))
  · rintro ⟨h, hc, hlast⟩
    constructor
    · intro d hd
      rcases List.mem_append.mp hd with hd | hd
      · exact h.valid d hd
      · rw [List.mem_singleton.mp hd]
        exact hc
    · intro p hp
      rcases (hpairs p).mp hp with hp | ⟨last, hmem, rfl⟩
      · exact h.steps p hp
      · exact hlast last hmem

section Exact

variable [IsStrictOrderedRing K]

omit [LinearOrder K] [IsStrictOrderedRing K] in
/-- The step of the clock that the code computes. -/
theorem callSeconds_eq {p : MetricsCall K × MetricsCall K} (h : p.1.now < p.2.now) :
    callSeconds p = stepSeconds p := by
  have hle := UInt64.le_iff_toNat_le.mp (UInt64.le_of_lt h)
  rw [callSeconds, stepSeconds, UInt64.toNat_sub_of_le _ _ (UInt64.le_of_lt h), Nat.cast_sub hle]

theorem stepSeconds_pos {p : MetricsCall K × MetricsCall K} :
    0 < stepSeconds p ↔ p.1.now < p.2.now := by
  rw [stepSeconds, div_pos_iff_of_pos_right (by norm_num), sub_pos, Nat.cast_lt]
  exact UInt64.lt_iff_toNat_lt.symm

theorem metricsInterval_iff {p : MetricsCall K × MetricsCall K}
    (hfirst : p.1.sample.valid = true) (hsecond : p.2.sample.valid = true)
    (hpos : 0 < p.1.now) :
    MetricsInterval p ↔ 0 < stepSeconds p ∧ stepSeconds p ≤ 0.05 := by
  rw [MetricsInterval, stepSeconds_pos]
  constructor
  · intro h
    rw [← callSeconds_eq h.2.2.2.1]
    exact ⟨h.2.2.2.1, h.2.2.2.2⟩
  · intro h
    rw [callSeconds_eq h.1]
    exact ⟨hfirst, hsecond, (UInt64.ne_of_lt hpos).symm, h.1, h.2⟩

omit [IsStrictOrderedRing K] in
/-- A valid sample interrupts what has begun when no interval ends at it. -/
theorem interrupts_of_valid (hc : c.sample.valid = true) :
    Interrupts calls c ↔ (∃ b ∈ calls, b.sample.valid = true) ∧
      ∀ last ∈ calls.getLast?, ¬MetricsInterval (last, c) := by
  rw [Interrupts, hc]
  simp only [Bool.true_eq_false, false_or]

/-- A call interrupts a gapless measurement if the measurement is not gapless with it. -/
theorem interrupts_iff (hpos : ∀ b ∈ calls, 0 < b.now) (h : Gapless calls) :
    Interrupts calls c ↔ ¬Gapless (calls ++ [c]) := by
  rw [gapless_concat]
  by_cases hc : c.sample.valid = true
  swap
  · simp [Interrupts, hc]
  have hinterval : ∀ last ∈ calls.getLast?,
      (MetricsInterval (last, c) ↔ 0 < stepSeconds (last, c) ∧ stepSeconds (last, c) ≤ 0.05) := by
    intro last hlast
    have hmem := List.mem_of_getLast? hlast
    exact metricsInterval_iff (h.valid last hmem) hc (hpos last hmem)
  rcases List.eq_nil_or_concat calls with rfl | ⟨earlier, last, rfl⟩
  · -- the first sample has nothing to interrupt
    simp [Interrupts, hc, gapless_nil]
  · rw [List.concat_eq_append] at h hinterval ⊢
    have hlast := h.valid last (by simp)
    rw [List.getLast?_concat] at hinterval ⊢
    have hone := hinterval last rfl
    rw [interrupts_of_valid hc, List.getLast?_concat]
    constructor
    · rintro ⟨-, hnone⟩ ⟨-, -, hstep⟩
      exact hnone last rfl (hone.mpr (hstep last rfl))
    · intro hnot
      refine ⟨⟨last, by simp, hlast⟩, ?_⟩
      rintro _ ⟨⟩ hmade
      refine hnot ⟨h, hc, ?_⟩
      rintro _ ⟨⟩
      exact hone.mp hmade

/-- **The measurements without an interruption.** -/
theorem interruptions_eq_zero (hpos : ∀ b ∈ calls, 0 < b.now) :
    interruptions [] calls = 0 ↔ Gapless calls := by
  induction calls using List.reverseRecOn with
  | nil => exact ⟨fun _ => gapless_nil, fun _ => rfl⟩
  | append_singleton calls c ih =>
    have hpos' : ∀ b ∈ calls, 0 < b.now := fun b hb => hpos b (List.mem_append_left _ hb)
    rw [interruptions_concat, List.nil_append, Nat.add_eq_zero_iff, ih hpos']
    constructor
    · rintro ⟨h, hlast⟩
      by_contra hnot
      rw [if_pos ((interrupts_iff hpos' h).mpr hnot)] at hlast
      cases hlast
    · intro h
      have hcalls := (gapless_concat.mp h).1
      refine ⟨hcalls, if_neg ?_⟩
      intro hinterrupts
      exact (interrupts_iff hpos' hcalls).mp hinterrupts h

end Exact

/-! ### The counters -/

section Step

variable [FloorRing K] [Libm K] {steady : List (MetricsCall K × MetricsCall K)}
  {m : CalibrationMetrics K}

/-- After the calls: the counters, the time, and whether there was a valid sample. -/
structure MetricsCounts (calls : List (MetricsCall K)) (m : CalibrationMetrics K) : Prop where
  gaps : m.gaps = UInt32.ofNat (interruptions [] calls)
  samples : m.samples = UInt32.ofNat (calls.countP fun c => c.sample.valid)
  elapsedS : m.elapsedS = ((metricsIntervals calls).map callSeconds).sum
  lastUs : m.lastUs ≠ 0 ↔ ∃ b ∈ calls, b.sample.valid = true

/-- What a valid sample does to the counters and the time. -/
theorem observe_counts (hactive : m.active = true) (hvalid : c.sample.valid = true) :
    (c.observe m).samples = m.samples + 1 ∧ (c.observe m).lastUs = c.now ∧
      (endsInterval m c = true →
        (c.observe m).gaps = m.gaps ∧ (c.observe m).elapsedS = m.elapsedS + m.dt c.now) ∧
      (endsInterval m c = false → (c.observe m).elapsedS = m.elapsedS ∧
        (c.observe m).gaps = if m.lastUs ≠ 0 then m.gaps + 1 else m.gaps) := by
  obtain ⟨m', hm', heq⟩ := observe_valid hactive hvalid
  rw [heq]
  -- the start of the motion is not looked at
  have hnote : ∃ start, noteStart m c = { m with motionStartUs := start } := by
    rw [noteStart]
    split
    · exact ⟨_, rfl⟩
    · exact ⟨_, rfl⟩
  obtain ⟨start, hstart⟩ := hnote
  rw [hstart, measureInterval] at hm'
  have hends : endsInterval { m with motionStartUs := start } c = endsInterval m c := rfl
  rw [hends] at hm'
  split at hm'
  next hinterval =>
    subst hm'
    refine ⟨rfl, rfl, fun _ => ⟨rfl, rfl⟩, fun h => ?_⟩
    rw [hinterval] at h
    cases h
  next hinterval =>
    have hsamples : m'.samples = m.samples ∧ m'.elapsedS = m.elapsedS ∧
        m'.gaps = if m.lastUs ≠ 0 then m.gaps + 1 else m.gaps := by
      subst hm'
      by_cases hlast : m.lastUs ≠ 0
      · rw [if_pos hlast, if_pos hlast]
        exact ⟨rfl, rfl, rfl⟩
      · rw [if_neg hlast, if_neg hlast]
        exact ⟨rfl, rfl, rfl⟩
    obtain ⟨hsamples, helapsed, hgaps⟩ := hsamples
    exact ⟨congrArg (· + 1) hsamples, rfl, fun h => absurd h hinterval,
      fun _ => ⟨helapsed, hgaps⟩⟩

variable [IsStrictOrderedRing K]

omit [Field K] [LinearOrder K] [FloorRing K] [Libm K] [IsStrictOrderedRing K] in
theorem countP_valid_concat : ((calls ++ [c]).countP fun c => c.sample.valid) =
    (calls.countP fun c => c.sample.valid) + if c.sample.valid then 1 else 0 := by
  rw [List.countP_append, List.countP_singleton]

omit [IsStrictOrderedRing K] in
/-- An invalid sample is an interruption, and nothing else. -/
theorem MetricsCounts.observe_of_invalid (h : MetricsCounts calls m) (hactive : m.active = true)
    (hc : c.sample.valid = false) : MetricsCounts (calls ++ [c]) (c.observe m) := by
  have hnot : ¬c.sample.valid = true := ne_true_of_eq_false hc
  have hskip : metricsIntervals (calls ++ [c]) = metricsIntervals calls :=
    List.filter_successive_skip fun _ _ hinterval => hnot hinterval.2.1
  rw [observe_invalid hactive hc]
  refine ⟨?_, ?_, ?_, ?_⟩
  · rw [interruptions_concat, if_pos (.inl hc), UInt32.ofNat_add, ← h.gaps]
    rfl
  · rw [countP_valid_concat, if_neg hnot]
    exact h.samples
  · rw [hskip]
    exact h.elapsedS
  · show m.lastUs ≠ 0 ↔ _
    rw [h.lastUs]
    constructor
    · rintro ⟨b, hb, hvalid⟩
      exact ⟨b, List.mem_append_left _ hb, hvalid⟩
    · rintro ⟨b, hb, hvalid⟩
      rcases List.mem_append.mp hb with hb | hb
      · exact ⟨b, hb, hvalid⟩
      · rw [List.mem_singleton.mp hb] at hvalid
        exact absurd hvalid hnot

/-- The counters of one more call. -/
theorem MetricsCounts.observe (h : MetricsCounts calls m) (hsums : MetricsSums calls steady m)
    (hpos : 0 < c.now) : MetricsCounts (calls ++ [c]) (c.observe m) := by
  by_cases hc : c.sample.valid = true
  swap
  · exact h.observe_of_invalid hsums.active (Bool.eq_false_iff.mpr hc)
  obtain ⟨hsamples, hlastUs, hadds, hbreaks⟩ := observe_counts hsums.active hc
  have hcounted : (c.observe m).samples =
      UInt32.ofNat ((calls ++ [c]).countP fun c => c.sample.valid) := by
    rw [countP_valid_concat, if_pos hc, UInt32.ofNat_add, ← h.samples, hsamples]
    rfl
  have hstarted : (c.observe m).lastUs ≠ 0 ↔ ∃ b ∈ calls ++ [c], b.sample.valid = true := by
    rw [hlastUs]
    exact ⟨fun _ => ⟨c, by simp, hc⟩, fun _ => (UInt64.ne_of_lt hpos).symm⟩
  by_cases hends : endsInterval m c = true
  · obtain ⟨last, hlast, hinterval⟩ := (hsums.ends_iff hc).mp hends
    have hadd : metricsIntervals (calls ++ [c]) = metricsIntervals calls ++ [(last, c)] :=
      List.filter_successive_add hlast hinterval
    have hquiet : ¬Interrupts calls c := by
      rw [interrupts_of_valid hc]
      exact fun hinterrupts => hinterrupts.2 last hlast hinterval
    have hdt : m.dt c.now = callSeconds (last, c) := by
      rw [CalibrationMetrics.dt, (hsums.last last hlast hinterval.1).1]
      exact if_pos ⟨hinterval.2.2.1, hinterval.2.2.2.1⟩
    obtain ⟨hgaps, helapsed⟩ := hadds hends
    refine ⟨?_, hcounted, ?_, hstarted⟩
    · rw [interruptions_concat, List.nil_append, if_neg hquiet, Nat.add_zero, hgaps, h.gaps]
    · rw [helapsed, hadd, List.map_append, List.sum_append, h.elapsedS, hdt]
      simp
  · have hnone : ∀ last ∈ calls.getLast?, ¬MetricsInterval (last, c) :=
      fun last hlast hinterval => hends ((hsums.ends_iff hc).mpr ⟨last, hlast, hinterval⟩)
    have hskip : metricsIntervals (calls ++ [c]) = metricsIntervals calls :=
      List.filter_successive_skip hnone
    obtain ⟨helapsed, hgaps⟩ := hbreaks (Bool.eq_false_iff.mpr hends)
    refine ⟨?_, hcounted, by rw [helapsed, hskip, h.elapsedS], hstarted⟩
    rw [hgaps, interruptions_concat, List.nil_append]
    by_cases hlast : m.lastUs ≠ 0
    · have hinterrupts := (interrupts_of_valid hc).mpr ⟨h.lastUs.mp hlast, hnone⟩
      rw [if_pos hlast, if_pos hinterrupts, UInt32.ofNat_add, ← h.gaps]
      rfl
    · have hquiet : ¬Interrupts calls c := by
        rw [interrupts_of_valid hc]
        exact fun hinterrupts => hlast (h.lastUs.mpr hinterrupts.1)
      rw [if_neg hlast, if_neg hquiet, Nat.add_zero, h.gaps]

/-- The run lemma. -/
theorem metricsCounts_run (now : UInt64) (accel : Fin 3 → K) (bodyResponse : Bool)
    (hpos : ∀ c ∈ calls, 0 < c.now) :
    MetricsCounts calls (metricsRun now accel bodyResponse calls) := by
  induction calls using List.reverseRecOn with
  | nil =>
    refine ⟨rfl, rfl, rfl, ?_⟩
    simp [metricsRun, calibrationMetricsBegin, CalibrationMetrics.zero]
  | append_singleton calls c ih =>
    have h := ih fun b hb => hpos b (List.mem_append_left _ hb)
    obtain ⟨steady, hsums⟩ := metricsSums_run now accel bodyResponse calls
    rw [metricsRun, List.foldl_append]
    exact h.observe hsums (hpos c (by simp))

end Step

/-! ### What a gap count of zero means -/

section Meaning

variable {calls : List (MetricsCall K)}

/-- In a gapless measurement every pair of calls is an interval. -/
theorem Gapless.intervals [IsStrictOrderedRing K] (h : Gapless calls)
    (hpos : ∀ c ∈ calls, 0 < c.now) : metricsIntervals calls = calls.successive := by
  rw [metricsIntervals, List.filter_eq_self]
  rintro ⟨a, b⟩ hp
  obtain ⟨ha, hb⟩ := List.of_mem_zip hp
  rw [decide_eq_true_eq]
  exact (metricsInterval_iff (h.valid a ha) (h.valid b (List.mem_of_mem_tail hb)) (hpos a ha)).mpr
    (h.steps _ hp)

/-- The intervals of a gapless measurement cover the span. -/
theorem Gapless.span [IsStrictOrderedRing K] (h : Gapless calls) {first last : MetricsCall K}
    (hfirst : calls.head? = some first) (hlast : calls.getLast? = some last) :
    (calls.successive.map callSeconds).sum = stepSeconds (first, last) := by
  have hseconds : calls.successive.map callSeconds = calls.successive.map fun p =>
      (p.2.now.toNat : K) / 1e6 - (p.1.now.toNat : K) / 1e6 := by
    refine List.map_congr_left fun p hp => ?_
    rw [callSeconds_eq (stepSeconds_pos.mp (h.steps p hp).1), stepSeconds, sub_div]
  rw [hseconds, stepSeconds, sub_div]
  cases calls with
  | nil => cases hfirst
  | cons a calls =>
    obtain rfl := Option.some.inj hfirst
    rcases List.eq_nil_or_concat calls with rfl | ⟨middle, b, rfl⟩
    · obtain rfl := Option.some.inj hlast
      simp
    · rw [List.concat_eq_append, ← List.cons_append, List.getLast?_concat] at hlast
      obtain rfl := Option.some.inj hlast
      rw [List.concat_eq_append]
      exact List.sum_successive_sub (fun c : MetricsCall K => (c.now.toNat : K) / 1e6) middle a b

variable [FloorRing K] [Libm K]

/-- What a gap count of zero is to mean, of the metrics after the calls. -/
structure GaplessMeaning (calls : List (MetricsCall K)) (m : CalibrationMetrics K) : Prop where
  zero : m.gaps = 0 ↔ Gapless calls
  samples : Gapless calls → m.samples.toNat = calls.length
  elapsedS : Gapless calls → ∀ first ∈ calls.head?, ∀ last ∈ calls.getLast?,
    m.elapsedS = stepSeconds (first, last)
  integrals : Gapless calls →
    m.gyroYaw = integral MetricsSample.gyro calls.successive ∧
      m.encoderYaw = integral MetricsSample.encoder calls.successive ∧
      m.distance = integral MetricsSample.vx calls.successive
  /-- No run with these metrics is reported valid unless they are gapless. -/
  analysis : ∀ (run : TrialRun K) (a : Analysis K), run.metrics = m.reply →
    analyze run = some a → a.valid = true → Gapless calls

theorem uint32_ofNat_eq_zero {n : ℕ} : UInt32.ofNat n = 0 ↔ 2 ^ 32 ∣ n := by
  rw [← UInt32.toNat_inj, UInt32.toNat_ofNat', Nat.dvd_iff_mod_eq_zero]
  rfl

/-- **A gap count of zero means a gapless measurement**, with the samples, the time and
the integrals of the whole span, if and only if neither 32-bit counter comes round to
where it began: a gapless measurement has fewer than 2^32 calls, and any other one is not
interrupted a multiple of 2^32 times. -/
theorem gap_count_iff [IsStrictOrderedRing K] (now : UInt64) (accel : Fin 3 → K)
    (bodyResponse : Bool) (hpos : ∀ c ∈ calls, 0 < c.now) :
    GaplessMeaning calls (metricsRun now accel bodyResponse calls) ↔
      (Gapless calls → calls.length < 2 ^ 32) ∧
        (¬Gapless calls → ¬2 ^ 32 ∣ interruptions [] calls) := by
  have hcounts := metricsCounts_run now accel bodyResponse hpos
  obtain ⟨steady, hsums⟩ := metricsSums_run now accel bodyResponse calls
  set m := metricsRun now accel bodyResponse calls
  have hgaps : m.gaps = 0 ↔ 2 ^ 32 ∣ interruptions [] calls := by
    rw [hcounts.gaps, uint32_ofNat_eq_zero]
  have hsamples : Gapless calls → m.samples.toNat = calls.length % 2 ^ 32 := by
    intro h
    rw [hcounts.samples, List.countP_eq_length.mpr h.valid, UInt32.toNat_ofNat']
  constructor
  · intro h
    constructor
    · intro hgapless
      have hall := h.samples hgapless
      rw [hsamples hgapless] at hall
      rw [← hall]
      exact Nat.mod_lt _ (by norm_num)
    · intro hbroken hdvd
      exact hbroken (h.zero.mp (hgaps.mpr hdvd))
  · rintro ⟨hshort, hcounted⟩
    have hzero : m.gaps = 0 ↔ Gapless calls := by
      rw [hgaps]
      constructor
      · intro hdvd
        by_contra hbroken
        exact hcounted hbroken hdvd
      · intro hgapless
        rw [(interruptions_eq_zero hpos).mpr hgapless]
        exact dvd_zero _
    refine ⟨hzero, fun h => ?_, fun h first hfirst last hlast => ?_, fun h => ?_, ?_⟩
    · rw [hsamples h, Nat.mod_eq_of_lt (hshort h)]
    · rw [hcounts.elapsedS, h.intervals hpos, h.span hfirst hlast]
    · rw [hsums.gyroYaw, hsums.encoderYaw, hsums.distance, h.intervals hpos]
      exact ⟨rfl, rfl, rfl⟩
    · intro run a hrun ha hvalid
      obtain ⟨r, htrial⟩ := analyze_valid ha hvalid
      have hnone := htrial.gaps
      rw [hrun] at hnone
      exact hzero.mp (UInt32.toNat_inj.mp hnone)

omit [FloorRing K] [Libm K] in
/-- Fewer than 2^32 calls never bring the gap counter round. -/
theorem not_dvd_interruptions [IsStrictOrderedRing K] (hpos : ∀ c ∈ calls, 0 < c.now)
    (hlength : calls.length < 2 ^ 32) (hbroken : ¬Gapless calls) :
    ¬2 ^ 32 ∣ interruptions [] calls := by
  intro hdvd
  have hle := interruptions_le_length [] calls
  have hzero := Nat.eq_zero_of_dvd_of_lt hdvd (by omega)
  exact hbroken ((interruptions_eq_zero hpos).mp hzero)

end Meaning

/-! ### Examples -/

/-- A sample at rest. -/
def restSample (valid : Bool) : MetricsSample K :=
  { accel := fun _ => 0, gyro := 0, vx := 0, encoder := 0, requestedVx := 0, requestedWz := 0
    shapedVx := 0, shapedWz := 0, icr := 1, valid, moving := false }

theorem gap_count_iff_hole :
    let calls : List (MetricsCall ℚ) :=
      [⟨1000, restSample true⟩, ⟨11000, restSample true⟩, ⟨111000, restSample true⟩]
    GaplessMeaning calls (metricsRun 1000 (fun _ => 0) true calls) := by
  intro calls
  have hpos : ∀ c ∈ calls, 0 < c.now := by decide +kernel
  refine (gap_count_iff 1000 (fun _ => 0) true hpos).mpr
    ⟨fun _ => ?_, not_dvd_interruptions hpos ?_⟩
  · decide
  · decide

/-- Invalid samples only count. -/
theorem metricsRun_invalid [FloorRing K] [Libm K] (now : UInt64) (accel : Fin 3 → K)
    (bodyResponse : Bool) (n : ℕ) :
    metricsRun now accel bodyResponse (List.replicate n ⟨1, restSample false⟩) =
      { calibrationMetricsBegin now accel with bodyResponse, gaps := UInt32.ofNat n } := by
  induction n with
  | zero => rfl
  | succ n ih =>
    rw [List.replicate_succ', metricsRun, List.foldl_append, ← metricsRun, ih]
    rw [List.foldl_cons, List.foldl_nil, observe_invalid rfl rfl, UInt32.ofNat_add]
    rfl

/-- 2^32 invalid samples are no gap. -/
theorem gap_count_wraps :
    let calls : List (MetricsCall ℝ) := List.replicate (2 ^ 32) ⟨1, restSample false⟩
    (∀ c ∈ calls, 0 < c.now) ∧ (metricsRun 1 (fun _ => 0) true calls).gaps = 0 ∧
      ¬Gapless calls := by
  intro calls
  refine ⟨?_, ?_, ?_⟩
  · intro c hc
    rw [List.eq_of_mem_replicate hc]
    decide
  · rw [metricsRun_invalid]
    rfl
  · intro h
    have hfirst : (⟨1, restSample false⟩ : MetricsCall ℝ) ∈ calls :=
      List.mem_replicate.mpr ⟨by norm_num, rfl⟩
    have hvalid := h.valid _ hfirst
    cases hvalid
