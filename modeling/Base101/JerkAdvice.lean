/-
The recommended jerk limit (`recommend` of `tools/calibration/trials.py`), over an exact
field.

Of the runs of a recipe, those at the current parameters are compared with those that
differ in the one limit.  When the earlier setting did better, it is proposed again; when
the target is reached in time but with transients, a lower limit is.

* `recommend_suggestion` — the two branches that make a suggestion;
* `jerk_advice_iff` — exactly when every suggestion is sound;
* `jerk_advice_repeated` — at its lower bound the limit is proposed once more.
-/
import Base101.TrialRecords

namespace CalibrationServer

variable {K : Type} [Field K] [LinearOrder K] [FloorRing K] [Libm K]

/-! ### The runs that are compared -/

/-- The limit that a recipe is about. -/
inductive Axis
  | jx | jw
deriving DecidableEq

def Axis.key : Axis → String
  | .jx => "jx"
  | .jw => "jw"

/-- `jw` for a recipe that turns. -/
def recipeAxis (recipe : SerialLink.Recipe K) : Axis :=
  if recipe.stages.any fun stage => stage.wz ≠ 0 then .jw else .jx

/-- A valid run of the recipe that was good, or was to be tuned. -/
def RunRecord.countsFor (r : RunRecord K) (recipeId : String) : Bool :=
  r.recipe = recipeId && r.valid && r.isGoodOrTune

/-- `l[-2:]`. -/
def lastTwo {α : Type} (l : List α) : List α := l.drop (l.length - 2)

section Runs

variable (runs : List (RunRecord K)) (recipeId : String) (parameters : Parameters)

/-- The runs at the current parameters. -/
def atParameters : List (RunRecord K) :=
  runs.filter fun r => r.countsFor recipeId && r.parameters.Same parameters

/-- `context`: that of the last of them. -/
def latestContext : Option (Option String × Option String) :=
  (atParameters runs recipeId parameters).getLast?.map RunRecord.context

/-- `same`. -/
def sameRuns : List (RunRecord K) :=
  (atParameters runs recipeId parameters).filter fun r =>
    some r.context = latestContext runs recipeId parameters

/-- The run has another value of the limit, and the values of `parameters` otherwise. -/
def RunRecord.variesIn (r : RunRecord K) (axis : Axis) (parameters : Parameters) : Bool :=
  r.parameters.get axis.key ≠ parameters.get axis.key &&
    parameters.entries.all fun item =>
      item.1 = axis.key || r.parameters.get item.1 = some item.2

/-- `baseline`. -/
def baselineRuns (axis : Axis) : List (RunRecord K) :=
  runs.filter fun r => r.countsFor recipeId &&
    some r.context = latestContext runs recipeId parameters && r.variesIn axis parameters

end Runs

/-! ### The recommendation -/

/-- The time to the target, when it was reached. -/
def reached (s : StoredAnalysis K) : Option K := s.responseS.join.filter fun t => 0 ≤ t

/-- The mean of the transients; a run without them raises. -/
def meanKnocks (rows : List (StoredAnalysis K)) : Option K := do
  let knocks ← rows.mapM fun s => s.knocks.join
  knocks.mean

/-- `comparison`. -/
structure Comparison (K : Type) where
  beforeS : K
  afterS : K
  beforeKnocks : K
  afterKnocks : K

/-- The response is slower by more than 25%, or there are more transients. -/
def Comparison.worsened (c : Comparison K) : Bool :=
  c.beforeS * 1.25 < c.afterS || c.beforeKnocks < c.afterKnocks

/-- The last setting of the baseline and its last two runs against the latest two runs,
whose analyses and responses are given; `some none` when there is nothing to compare. -/
def compareRuns (baseline : List (RunRecord K)) (a : List (StoredAnalysis K))
    (response : List K) : Option (Option (Parameters × Comparison K)) :=
  match baseline.getLast? with
  | none => some none
  | some last =>
    let pair := lastTwo (baseline.filter fun r => r.parameters.Same last.parameters)
    if baseline.length < 2 ∨ pair.length ≠ 2 then some none
    else do
      let earlier ← pair.mapM RunRecord.analysis
      let times ← earlier.mapM fun s => s.responseS.getD (some (-1))
      let least ← times.min?
      if least < 0 then some none
      else do
        let beforeS ← times.mean
        let afterS ← response.mean
        let beforeKnocks ← meanKnocks earlier
        let afterKnocks ← meanKnocks a
        some (some (last.parameters, { beforeS, afterS, beforeKnocks, afterKnocks }))

structure Recommendation (K : Type) where
  suggestion : Option (Axis × JsonValue)
  message : String
  comparison : Option (Comparison K)
  /-- The transients and the response of the latest two runs. -/
  baseline : Option (K × K)
  experimental : Bool

/-- No limit is proposed. -/
def noAdvice (message : String) : Recommendation K :=
  { suggestion := none, message, comparison := none, baseline := none, experimental := false }

/-- The earlier setting is proposed. -/
def restore (axis : Axis) (old : Parameters) (c : Comparison K) : Option (Recommendation K) :=
  (old.dict.items.lookup axis.key).map fun value =>
    { suggestion := some (axis, value)
      message := "Candidate worsened response by >25% or increased transients. " ++
        "Restore the previous setting."
      comparison := some c, baseline := none, experimental := false }

/-- `candidate`: 20% less, but not below the lower bound. -/
def candidate (axis : Axis) (parameters : Parameters) : Option ℚ := do
  let (low, _) ← limits.lookup axis.key
  let value ← parameters.get axis.key
  some (roundTo 3 (max low (value * 0.8)))

/-- The candidate is proposed. -/
def tryLower (axis : Axis) (parameters : Parameters) (a : List (StoredAnalysis K))
    (response : List K) : Option (Recommendation K) := do
  let value ← candidate axis parameters
  let knocks ← meanKnocks a
  let responseS ← response.mean
  some
    { suggestion := some (axis, .float value)
      message := "Compare " ++ axis.key ++ " at −20%, keeping acceleration unchanged. " ++
        "Repeat twice; reject if response worsens by >25%."
      comparison := none, baseline := some (knocks, responseS), experimental := true }

/-- The advice when no earlier setting is to be restored. -/
def advise (axis : Axis) (parameters : Parameters) (a : List (StoredAnalysis K))
    (response : List K) : Option (Recommendation K) := do
  let slowest ← response.max?
  if 1.5 < slowest then
    some (noAdvice ("Response is already slow (>1.5 s). Do not lower jerk blindly; compare " ++
      "tracking and motor ramp first."))
  else do
    -- an absent count reads as 0 here
    let knocks ← a.mapM fun s => s.knocks.getD (some 0)
    let mean ← knocks.mean
    if 1 ≤ mean then tryLower axis parameters a response
    else some (noAdvice ("No threshold transients in the repeated baseline. Keep these " ++
      "settings until another test shows a problem."))

/-- `recommend`. -/
def recommend (runs : List (RunRecord K)) (recipeId : String) (parameters : Parameters) :
    Option (Recommendation K) :=
  let same := sameRuns runs recipeId parameters
  if same.length < 2 then
    some (noAdvice "Repeat and confirm this baseline twice before comparing a candidate.")
  else do
    let a ← (lastTwo same).mapM RunRecord.analysis
    let response := a.filterMap reached
    if response.length < 2 then
      some (noAdvice "The target was not reached; investigate tracking before changing shaping.")
    else do
      let recipe ← (SerialLink.byId recipeId : Option (SerialLink.Recipe K))
      let axis := recipeAxis recipe
      let compared ← compareRuns (baselineRuns runs recipeId parameters axis) a response
      match compared with
      | some (old, c) =>
        if c.worsened then restore axis old c else advise axis parameters a response
      | none => advise axis parameters a response

/-! ### Sound advice -/

/-- The target was reached within 1.5 s, with a transient or more on average. -/
structure KnocksInTime (a : List (StoredAnalysis K)) : Prop where
  fast : ∀ s ∈ a, ∃ t, s.responseS = some (some t) ∧ 0 ≤ t ∧ t ≤ 1.5
  knocks : ∃ mean, meanKnocks a = some mean ∧ 1 ≤ mean

/-- Two dictionaries differ in the limit of an axis, and in nothing else. -/
structure DifferOnlyIn (axis : Axis) (p q : Parameters) : Prop where
  value : p.get axis.key ≠ q.get axis.key
  rest : ∀ key, key ≠ axis.key → p.get key = q.get key

section Advice

variable (runs : List (RunRecord K)) (recipeId : String) (parameters : Parameters)

/-- The runs at the current parameters in a context. -/
def currentRuns (context : Option String × Option String) : List (RunRecord K) :=
  runs.filter fun r =>
    r.countsFor recipeId && r.parameters.Same parameters && r.context = context

/-- What a suggestion may be, and what it has to rest on. -/
structure AdviceSound (recipe : SerialLink.Recipe K) (context : Option String × Option String)
    (axis : Axis) (value : JsonValue) (experimental : Bool) : Prop where
  known : SerialLink.byId recipeId = some recipe
  turns : axis = .jw ↔ ∃ stage ∈ recipe.stages, stage.wz ≠ 0
  accepted : validateParameters (some (parameters.dict.set axis.key value)) =
    .ok (parameters.dict.set axis.key value)
  changes : value.number ≠ parameters.get axis.key
  latest : latestContext runs recipeId parameters = some context
  repeated : 2 ≤ (currentRuns runs recipeId parameters context).length
  lower : experimental = true → ∃ v current,
    value.number = some v ∧ parameters.get axis.key = some current ∧ v < current
  knocks : experimental = true → ∃ a,
    (lastTwo (currentRuns runs recipeId parameters context)).map RunRecord.analysis =
      a.map some ∧ KnocksInTime a
  /-- Two runs had the suggested value, and differ from the current setting only in it. -/
  earlier : experimental = false → ∃ two : List (RunRecord K),
    two.length = 2 ∧ two.Sublist runs ∧ ∀ r ∈ two, r.recipe = recipeId ∧ r.valid = true ∧
      r.context = context ∧ r.parameters.get axis.key = value.number ∧
      DifferOnlyIn axis r.parameters parameters

/-- The analyses of the latest two runs, in which the target was reached. -/
structure Latest (a : List (StoredAnalysis K)) : Prop where
  repeated : 2 ≤ (sameRuns runs recipeId parameters).length
  analyses : (lastTwo (sameRuns runs recipeId parameters)).mapM RunRecord.analysis = some a
  onTarget : 2 ≤ (a.filterMap reached).length

/-- They are compared with the baseline. -/
def compared (axis : Axis) (a : List (StoredAnalysis K)) :
    Option (Option (Parameters × Comparison K)) :=
  compareRuns (baselineRuns runs recipeId parameters axis) a (a.filterMap reached)

/-- The comparison is in favour of an earlier setting. -/
def Restores (axis : Axis) (old : Parameters) (c : Comparison K) : Prop :=
  c.worsened = true ∧ ∃ a, Latest runs recipeId parameters a ∧
    compared runs recipeId parameters axis a = some (some (old, c))

/-- There are transients, and no earlier setting did better. -/
def Lowers (axis : Axis) (a : List (StoredAnalysis K)) : Prop :=
  Latest runs recipeId parameters a ∧ KnocksInTime a ∧
    ∃ result, compared runs recipeId parameters axis a = some result ∧
      ∀ old c, result = some (old, c) → c.worsened = false

end Advice

/-! ### The branches -/

section Branches

variable {a : List (StoredAnalysis K)} {axis axis' : Axis} {parameters : Parameters}
  {advice : Recommendation K} {value : JsonValue}

omit [FloorRing K] [Libm K] in
theorem reached_eq_some {s : StoredAnalysis K} {t : K} :
    reached s = some t ↔ s.responseS = some (some t) ∧ 0 ≤ t := by
  rw [reached, Option.filter_eq_some_iff, Option.join_eq_some_iff, decide_eq_true_eq]

omit [LinearOrder K] [FloorRing K] [Libm K] in
/-- Where every run has a count, none is read as 0. -/
theorem meanKnocks_getD {mean : K} (h : meanKnocks a = some mean) :
    ∃ counts, (a.mapM fun s : StoredAnalysis K => s.knocks.getD (some 0)) = some counts ∧
      counts.mean = some mean := by
  obtain ⟨counts, hcounts, hmean⟩ := Option.bind_eq_some_iff.mp h
  have hmap := mapM_eq_some.mp hcounts
  refine ⟨counts, ?_, hmean⟩
  rw [mapM_eq_some, ← hmap]
  refine List.map_congr_left fun s hs => ?_
  have hmem : s.knocks.join ∈ counts.map some := by
    rw [← hmap]
    exact List.mem_map_of_mem hs
  obtain ⟨n, -, hn⟩ := List.mem_map.mp hmem
  rw [← hn, Option.join_eq_some_iff.mp hn.symm]
  rfl

omit [FloorRing K] [Libm K] in
/-- A lower limit is proposed only where there are transients in time. -/
theorem advise_suggestion (hreached : (a.filterMap reached).length = a.length)
    (h : advise axis parameters a (a.filterMap reached) = some advice)
    (hs : advice.suggestion = some (axis', value)) :
    axis' = axis ∧ advice.experimental = true ∧ KnocksInTime a ∧
      ∃ v, candidate axis parameters = some v ∧ value = .float v := by
  obtain ⟨slowest, hslowest, h⟩ := Option.bind_eq_some_iff.mp h
  split at h
  · obtain rfl := Option.some.inj h
    cases hs
  next hfast =>
    obtain ⟨counts, hcounts, h⟩ := Option.bind_eq_some_iff.mp h
    obtain ⟨mean, hmean, h⟩ := Option.bind_eq_some_iff.mp h
    split at h
    next hone =>
      obtain ⟨v, hv, h⟩ := Option.bind_eq_some_iff.mp h
      obtain ⟨knocks, hknocks, h⟩ := Option.bind_eq_some_iff.mp h
      obtain ⟨responseS, -, h⟩ := Option.bind_eq_some_iff.mp h
      obtain rfl := Option.some.inj h
      obtain ⟨rfl, rfl⟩ := Prod.mk.inj (Option.some.inj hs)
      refine ⟨rfl, rfl, ⟨?_, knocks, hknocks, ?_⟩, v, hv, rfl⟩
      · intro s hmem
        obtain ⟨t, ht⟩ := Option.isSome_iff_exists.mp
          (List.filterMap_length_eq_length.mp hreached s hmem)
        obtain ⟨hresponse, hpos⟩ := reached_eq_some.mp ht
        have hle := (List.max?_eq_some_iff.mp hslowest).2 t (List.mem_filterMap.mpr ⟨s, hmem, ht⟩)
        exact ⟨t, hresponse, hpos, hle.trans (not_lt.mp hfast)⟩
      · -- both means are of the same counts
        obtain ⟨counts', hcounts', hmean'⟩ := meanKnocks_getD hknocks
        obtain rfl := Option.some.inj (hcounts.symm.trans hcounts')
        obtain rfl := Option.some.inj (hmean.symm.trans hmean')
        exact hone
    · obtain rfl := Option.some.inj h
      cases hs

omit [FloorRing K] [Libm K] in
/-- Where there are, it is. -/
theorem advise_of_knocks {v : ℚ} (hknocks : KnocksInTime a) (hne : a ≠ [])
    (hv : candidate axis parameters = some v) :
    ∃ advice, advise axis parameters a (a.filterMap reached) = some advice ∧
      advice.suggestion = some (axis, .float v) ∧ advice.experimental = true := by
  obtain ⟨hfast, mean, hmean, hone⟩ := hknocks
  have htimes : ∀ t ∈ a.filterMap reached, t ≤ 1.5 := by
    intro t ht
    obtain ⟨s, hs, hst⟩ := List.mem_filterMap.mp ht
    obtain ⟨t', ht', -, hle⟩ := hfast s hs
    obtain rfl := Option.some.inj (Option.some.inj (ht'.symm.trans (reached_eq_some.mp hst).1))
    exact hle
  have hsome : a.filterMap reached ≠ [] := by
    obtain ⟨s, hs⟩ := List.exists_mem_of_ne_nil a hne
    obtain ⟨t, ht, hpos, -⟩ := hfast s hs
    exact List.ne_nil_of_mem (List.mem_filterMap.mpr ⟨s, hs, reached_eq_some.mpr ⟨ht, hpos⟩⟩)
  obtain ⟨slowest, hslowest⟩ : ∃ slowest, (a.filterMap reached).max? = some slowest :=
    Option.isSome_iff_exists.mp (List.isSome_max?_of_ne_nil hsome)
  have hle := htimes slowest (List.max?_mem hslowest)
  obtain ⟨counts, hcounts, hmeanCounts⟩ := meanKnocks_getD hmean
  have hresponse : (a.filterMap reached).mean =
      some ((a.filterMap reached).sum / (a.filterMap reached).length) := by
    rw [List.mean, if_neg (by simpa using hsome)]
  have hlower : advise axis parameters a (a.filterMap reached) =
      tryLower axis parameters a (a.filterMap reached) := by
    simp only [advise, hslowest, Option.bind_eq_bind, Option.bind_some, if_neg (not_lt.mpr hle),
      hcounts, hmeanCounts, if_pos hone]
  rw [hlower]
  simp only [tryLower, hv, hmean, hresponse, Option.bind_eq_bind, Option.bind_some]
  exact ⟨_, rfl, rfl, rfl⟩

omit [FloorRing K] [Libm K] in
/-- An earlier setting is that of the last run of the baseline, which has two of it. -/
theorem compareRuns_eq {baseline : List (RunRecord K)} {response : List K} {old : Parameters}
    {c : Comparison K} (h : compareRuns baseline a response = some (some (old, c))) :
    (∃ last ∈ baseline, last.parameters = old) ∧
      (lastTwo (baseline.filter fun r => r.parameters.Same old)).length = 2 := by
  rw [compareRuns] at h
  cases hlast : baseline.getLast? with
  | none =>
    rw [hlast] at h
    cases h
  | some last =>
    rw [hlast] at h
    dsimp only at h
    split at h
    · cases h
    next hpair =>
      obtain ⟨earlier, -, h⟩ := Option.bind_eq_some_iff.mp h
      obtain ⟨times, -, h⟩ := Option.bind_eq_some_iff.mp h
      obtain ⟨least, -, h⟩ := Option.bind_eq_some_iff.mp h
      split at h
      · cases h
      · obtain ⟨beforeS, -, h⟩ := Option.bind_eq_some_iff.mp h
        obtain ⟨afterS, -, h⟩ := Option.bind_eq_some_iff.mp h
        obtain ⟨beforeKnocks, -, h⟩ := Option.bind_eq_some_iff.mp h
        obtain ⟨afterKnocks, -, h⟩ := Option.bind_eq_some_iff.mp h
        obtain ⟨rfl, -⟩ := Prod.mk.inj (Option.some.inj (Option.some.inj h))
        rw [not_or, not_not] at hpair
        exact ⟨⟨last, List.mem_of_getLast? hlast, rfl⟩, hpair.2⟩

end Branches

section Run

variable {runs : List (RunRecord K)} {recipeId : String} {parameters old : Parameters}
  {recipe : SerialLink.Recipe K} {a : List (StoredAnalysis K)} {c : Comparison K} {axis : Axis}

theorem lastTwo_sublist {α : Type} (l : List α) : (lastTwo l).Sublist l := List.drop_sublist _ _

omit [FloorRing K] [Libm K] in
/-- In both of the latest two runs the target was reached. -/
theorem Latest.length (h : Latest runs recipeId parameters a) :
    a ≠ [] ∧ (a.filterMap reached).length = a.length := by
  have hlength : a.length = 2 := by
    have hmap := congrArg List.length (mapM_eq_some.mp h.analyses)
    have hrepeated := h.repeated
    rw [List.length_map, List.length_map, lastTwo, List.length_drop] at hmap
    omega
  have hreached := h.onTarget
  have hle := List.length_filterMap_le reached a
  constructor
  · rintro rfl
    cases hlength
  · omega

/-- **The two branches that make a suggestion.** -/
theorem recommend_suggestion {advice : Recommendation K} {value : JsonValue}
    (h : recommend runs recipeId parameters = some advice)
    (hs : advice.suggestion = some (axis, value)) :
    ∃ recipe : SerialLink.Recipe K, SerialLink.byId recipeId = some recipe ∧
      axis = recipeAxis recipe ∧
      ((advice.experimental = false ∧ ∃ old c, Restores runs recipeId parameters axis old c ∧
          old.dict.items.lookup axis.key = some value) ∨
        (advice.experimental = true ∧ ∃ a v, Lowers runs recipeId parameters axis a ∧
          candidate axis parameters = some v ∧ value = .float v)) := by
  rw [recommend] at h
  dsimp only at h
  split at h
  · obtain rfl := Option.some.inj h
    cases hs
  next hrepeated =>
    obtain ⟨a, ha, h⟩ := Option.bind_eq_some_iff.mp h
    split at h
    · obtain rfl := Option.some.inj h
      cases hs
    next hreached =>
      obtain ⟨recipe, hrecipe, h⟩ := Option.bind_eq_some_iff.mp h
      obtain ⟨result, hresult, h⟩ := Option.bind_eq_some_iff.mp h
      have hlatest : Latest runs recipeId parameters a :=
        ⟨not_lt.mp hrepeated, ha, not_lt.mp hreached⟩
      -- what follows when no earlier setting did better
      have hlower : advise (recipeAxis recipe) parameters a (a.filterMap reached) = some advice →
          (∀ old c, result = some (old, c) → c.worsened = false) →
          axis = recipeAxis recipe ∧ advice.experimental = true ∧
            ∃ a v, Lowers runs recipeId parameters axis a ∧
              candidate axis parameters = some v ∧ value = .float v := by
        intro hadvise hbetter
        obtain ⟨rfl, hexperimental, hknocks, v, hv, hvalue⟩ :=
          advise_suggestion hlatest.length.2 hadvise hs
        exact ⟨rfl, hexperimental, a, v, ⟨hlatest, hknocks, result, hresult, hbetter⟩, hv, hvalue⟩
      refine ⟨recipe, hrecipe, ?_⟩
      rcases result with - | ⟨old, c⟩
      · obtain ⟨haxis, hrest⟩ := hlower h fun old c hnone => by cases hnone
        exact ⟨haxis, .inr hrest⟩
      · dsimp only at h
        split at h
        next hworsened =>
          obtain ⟨value', hvalue', hadvice⟩ := Option.map_eq_some_iff.mp h
          obtain rfl := hadvice
          obtain ⟨rfl, rfl⟩ := Prod.mk.inj (Option.some.inj hs)
          exact ⟨rfl, .inl ⟨rfl, old, c, ⟨hworsened, a, hlatest, hresult⟩, hvalue'⟩⟩
        next hworsened =>
          have hbetter : ∀ old' c', some (old, c) = some (old', c') → c'.worsened = false := by
            intro old' c' hsome
            obtain ⟨-, rfl⟩ := Prod.mk.inj (Option.some.inj hsome)
            exact eq_false_of_ne_true hworsened
          obtain ⟨haxis, hrest⟩ := hlower h hbetter
          exact ⟨haxis, .inr hrest⟩

/-- What `recommend` returns once the latest two runs are known. -/
theorem recommend_of_latest (hlatest : Latest runs recipeId parameters a)
    (hrecipe : SerialLink.byId recipeId = some recipe) :
    recommend runs recipeId parameters =
      (compared runs recipeId parameters (recipeAxis recipe) a).bind fun result =>
        match result with
        | some (old, c) =>
          if c.worsened then restore (recipeAxis recipe) old c
          else advise (recipeAxis recipe) parameters a (a.filterMap reached)
        | none => advise (recipeAxis recipe) parameters a (a.filterMap reached) := by
  rw [recommend]
  simp only [if_neg (not_lt.mpr hlatest.repeated), hlatest.analyses, Option.bind_eq_bind,
    Option.bind_some, if_neg (not_lt.mpr hlatest.onTarget), hrecipe, compared]

theorem recommend_of_restores (h : Restores runs recipeId parameters (recipeAxis recipe) old c)
    (hrecipe : SerialLink.byId recipeId = some recipe) {value : JsonValue}
    (hvalue : old.dict.items.lookup (recipeAxis recipe).key = some value) :
    ∃ advice, recommend runs recipeId parameters = some advice ∧
      advice.suggestion = some (recipeAxis recipe, value) ∧ advice.experimental = false := by
  obtain ⟨hworsened, a, hlatest, hresult⟩ := h
  rw [recommend_of_latest hlatest hrecipe, hresult, Option.bind_some]
  dsimp only
  rw [if_pos hworsened, restore, hvalue]
  exact ⟨_, rfl, rfl, rfl⟩

theorem recommend_of_lowers (h : Lowers runs recipeId parameters (recipeAxis recipe) a)
    (hrecipe : SerialLink.byId recipeId = some recipe) {v : ℚ}
    (hv : candidate (recipeAxis recipe) parameters = some v) :
    ∃ advice, recommend runs recipeId parameters = some advice ∧
      advice.suggestion = some (recipeAxis recipe, .float v) ∧ advice.experimental = true := by
  obtain ⟨hlatest, hknocks, result, hresult, hbetter⟩ := h
  have hadvise := advise_of_knocks hknocks hlatest.length.1 hv
  rw [recommend_of_latest hlatest hrecipe, hresult, Option.bind_some]
  rcases result with - | ⟨old, c⟩
  · exact hadvise
  · dsimp only
    rw [if_neg (ne_true_of_eq_false (hbetter old c rfl))]
    exact hadvise

end Run

/-! ### The candidate -/

theorem Axis.key_mem (axis : Axis) (p : Parameters) : axis.key ∈ p.dict.keys := by
  obtain ⟨-, hkeys, -⟩ := validateParameters_ok.mp p.accepted
  have hboth : axis.key ∈ limits.map Prod.fst ∧ axis.key ∈ basicLimits.map Prod.fst := by
    cases axis with
    | jx => decide
    | jw => decide
  rcases hkeys with h | h
  · exact h.2 hboth.1
  · exact h.2 hboth.2

/-- The bounds of a jerk limit. -/
theorem Axis.lookup_key (axis : Axis) :
    ∃ n : ℤ, limits.lookup axis.key = some (0.01, (n : ℚ) / 10 ^ 3) := by
  cases axis with
  | jx => exact ⟨50000, by decide +kernel⟩
  | jw => exact ⟨200000, by decide +kernel⟩

/-- **The candidate** is an accepted value, below the current one unless that is the lower
bound. -/
theorem candidate_spec {axis : Axis} {parameters : Parameters} {v : ℚ}
    (h : parameters.get axis.key = some v) : ∃ w, candidate axis parameters = some w ∧
      checkParameter (axis.key, .float w) = .ok () ∧ (v ≠ 0.01 → w < v) ∧ (v = 0.01 → w = v) := by
  obtain ⟨n, hlimits⟩ := axis.lookup_key
  obtain ⟨hlow, hhigh⟩ := Parameters.get_bounds h hlimits
  have hten : ((10 : ℤ) : ℚ) / 10 ^ 3 = 0.01 := by norm_num
  set x := max 0.01 (v * 0.8) with hx
  have hxlow : (0.01 : ℚ) ≤ roundTo 3 x := le_roundTo hten (le_max_left _ _)
  have hxle : x ≤ v := max_le hlow (by linarith)
  refine ⟨roundTo 3 x, ?_, ?_, ?_, ?_⟩
  · simp only [candidate, hlimits, h, Option.bind_eq_bind, Option.bind_some, hx]
  · have hxhigh := roundTo_le rfl (hxle.trans hhigh)
    have hinteger : axis.key ∉ integerParameters := by
      cases axis with
      | jx => decide
      | jw => decide
    rw [checkParameter, hlimits]
    exact checkNumber_ok.mpr ⟨⟨hxlow, hxhigh⟩, fun hmem => absurd hmem hinteger⟩
  · intro hne
    have hlt : 0.01 < v := lt_of_le_of_ne hlow (Ne.symm hne)
    rcases le_total (v * 0.8) 0.01 with hsmall | hlarge
    · -- the lower bound
      have hrounded : roundTo 3 x ≤ 0.01 := roundTo_le hten (max_le le_rfl hsmall)
      linarith
    · -- a fifth less, and half of the last decimal more
      have herror := (abs_le.mp (abs_roundTo_sub_le 3 x)).2
      rw [hx, max_eq_right hlarge] at herror ⊢
      norm_num at herror
      linarith
  · intro heq
    have hrounded : roundTo 3 x ≤ 0.01 := roundTo_le hten (heq ▸ hxle)
    linarith

/-! ### When the advice is sound -/

section Sound

variable {runs : List (RunRecord K)} {recipeId : String} {parameters old : Parameters}
  {recipe : SerialLink.Recipe K} {a : List (StoredAnalysis K)} {c : Comparison K}

omit [Field K] [LinearOrder K] [FloorRing K] [Libm K] in
/-- The context of the latest run is that of all. -/
theorem sameRuns_context (h : 2 ≤ (sameRuns runs recipeId parameters).length) :
    ∃ context, latestContext runs recipeId parameters = some context ∧
      sameRuns runs recipeId parameters = currentRuns runs recipeId parameters context := by
  have hne : atParameters runs recipeId parameters ≠ [] := by
    intro hnil
    rw [sameRuns, hnil] at h
    cases h
  obtain ⟨last, hlast⟩ := Option.isSome_iff_exists.mp (List.getLast?_isSome.mpr hne)
  have hcontext : latestContext runs recipeId parameters = some last.context := by
    rw [latestContext, hlast, Option.map_some]
  refine ⟨last.context, hcontext, ?_⟩
  rw [sameRuns, currentRuns, hcontext, atParameters, List.filter_filter]
  refine List.filter_congr fun r _ => ?_
  rw [Bool.and_comm]
  simp only [Option.some_inj]

omit [FloorRing K] [Libm K] in
theorem turns_iff (recipe : SerialLink.Recipe K) :
    recipeAxis recipe = .jw ↔ ∃ stage ∈ recipe.stages, stage.wz ≠ 0 := by
  rw [recipeAxis]
  constructor
  · intro h
    split at h
    next hturns => simpa using hturns
    next => cases h
  · rintro ⟨stage, hmem, hwz⟩
    rw [if_pos (List.any_eq_true.mpr ⟨stage, hmem, by simpa using hwz⟩)]

omit [Field K] [LinearOrder K] [FloorRing K] [Libm K] in
/-- A run of the baseline whose dictionary has the size of the current one differs from it
in one limit only. -/
theorem differOnlyIn_iff {r : RunRecord K} {axis : Axis} :
    DifferOnlyIn axis r.parameters parameters ↔ r.variesIn axis parameters = true ∧
      r.parameters.entries.length = parameters.entries.length := by
  have hagree := Parameters.agree_iff (axis.key_mem parameters) (axis.key_mem r.parameters)
  have hvaries : r.variesIn axis parameters = true ↔
      r.parameters.get axis.key ≠ parameters.get axis.key ∧ ∀ item ∈ parameters.entries,
        item.1 = axis.key ∨ r.parameters.get item.1 = some item.2 := by
    simp only [RunRecord.variesIn, Bool.and_eq_true, decide_eq_true_eq, List.all_eq_true,
      Bool.or_eq_true]
  rw [hvaries, and_assoc, ← hagree]
  exact ⟨fun h => ⟨h.value, h.rest⟩, fun h => ⟨h.1, h.2⟩⟩

omit [Field K] [LinearOrder K] [FloorRing K] [Libm K] in
theorem mem_baselineRuns {r : RunRecord K} {axis : Axis} {context : Option String × Option String}
    (hcontext : latestContext runs recipeId parameters = some context) :
    r ∈ baselineRuns runs recipeId parameters axis ↔ r ∈ runs ∧ r.recipe = recipeId ∧
      r.valid = true ∧ r.isGoodOrTune = true ∧ r.context = context ∧
      r.variesIn axis parameters = true := by
  rw [baselineRuns, List.mem_filter, hcontext]
  simp only [RunRecord.countsFor, Bool.and_eq_true, decide_eq_true_eq, Option.some_inj, and_assoc]

/-- The records of an earlier setting with as many parameters as there are now, whatever
was observed in them. -/
def settingRuns (runs : List (RunRecord K)) (recipeId : String) (parameters : Parameters)
    (axis : Axis) (old : Parameters) : List (RunRecord K) :=
  runs.filter fun r => r.recipe = recipeId && r.valid &&
    some r.context = latestContext runs recipeId parameters && r.variesIn axis parameters &&
    r.parameters.get axis.key = old.get axis.key &&
    r.parameters.entries.length = parameters.entries.length

/-- A lower limit is tried only above the lower bound; and what is restored was set with
as many parameters as there are now.  The one exception is a setting that was also used
with as many, in two other records. -/
structure AdviceCondition (runs : List (RunRecord K)) (recipeId : String)
    (parameters : Parameters) : Prop where
  lowers : ∀ (recipe : SerialLink.Recipe K) (a : List (StoredAnalysis K)),
    SerialLink.byId recipeId = some recipe →
    Lowers runs recipeId parameters (recipeAxis recipe) a →
    parameters.get (recipeAxis recipe).key ≠ some 0.01
  restores : ∀ (recipe : SerialLink.Recipe K) (old : Parameters) (c : Comparison K),
    SerialLink.byId recipeId = some recipe →
    Restores runs recipeId parameters (recipeAxis recipe) old c →
    old.entries.length ≠ parameters.entries.length →
    2 ≤ (settingRuns runs recipeId parameters (recipeAxis recipe) old).length

omit [Field K] [LinearOrder K] [FloorRing K] [Libm K] in
theorem mem_settingRuns {r : RunRecord K} {axis : Axis} {context : Option String × Option String}
    (hcontext : latestContext runs recipeId parameters = some context) :
    r ∈ settingRuns runs recipeId parameters axis old ↔ r ∈ runs ∧ r.recipe = recipeId ∧
      r.valid = true ∧ r.context = context ∧ r.parameters.get axis.key = old.get axis.key ∧
      DifferOnlyIn axis r.parameters parameters := by
  rw [settingRuns, List.mem_filter, hcontext, differOnlyIn_iff]
  simp only [Bool.and_eq_true, decide_eq_true_eq, Option.some_inj]
  tauto

theorem sound_of_lowers (hrecipe : SerialLink.byId recipeId = some recipe)
    (h : Lowers runs recipeId parameters (recipeAxis recipe) a) {w : ℚ}
    (hw : candidate (recipeAxis recipe) parameters = some w)
    (hlimit : parameters.get (recipeAxis recipe).key ≠ some 0.01) :
    ∃ context, AdviceSound runs recipeId parameters recipe context (recipeAxis recipe)
      (.float w) true := by
  obtain ⟨hlatest, hknocks, -⟩ := h
  obtain ⟨context, hcontext, hsame⟩ := sameRuns_context hlatest.repeated
  obtain ⟨v, hv⟩ := Parameters.mem_keys.mp ((recipeAxis recipe).key_mem parameters)
  obtain ⟨w', hw', haccepted, hlower, -⟩ := candidate_spec hv
  obtain rfl := Option.some.inj (hw.symm.trans hw')
  have hlt : w < v := hlower fun heq => hlimit (heq ▸ hv)
  have hrepeated := hlatest.repeated
  have hanalyses := mapM_eq_some.mp hlatest.analyses
  rw [hsame] at hrepeated hanalyses
  refine ⟨context, hrecipe, turns_iff recipe, ?_, ?_, hcontext, hrepeated, ?_, ?_, ?_⟩
  · exact Parameters.accepted_set ((recipeAxis recipe).key_mem parameters) haccepted
  · rw [hv]
    intro heq
    exact hlt.ne (Option.some.inj heq)
  · exact fun _ => ⟨w, v, rfl, hv, hlt⟩
  · exact fun _ => ⟨a, hanalyses, hknocks⟩
  · intro hfalse
    cases hfalse

theorem sound_of_restores (hrecipe : SerialLink.byId recipeId = some recipe)
    (h : Restores runs recipeId parameters (recipeAxis recipe) old c) {value : JsonValue}
    (hvalue : old.dict.items.lookup (recipeAxis recipe).key = some value)
    (hsize : old.entries.length ≠ parameters.entries.length →
      2 ≤ (settingRuns runs recipeId parameters (recipeAxis recipe) old).length) :
    ∃ context, AdviceSound runs recipeId parameters recipe context (recipeAxis recipe)
      value false := by
  obtain ⟨-, a, hlatest, hcompared⟩ := h
  obtain ⟨⟨last, hlast, rfl⟩, hpair⟩ := compareRuns_eq hcompared
  obtain ⟨context, hcontext, hsame⟩ := sameRuns_context hlatest.repeated
  have hnumber : value.number = last.parameters.get (recipeAxis recipe).key := by
    rw [Parameters.get, Dict.number, hvalue, Option.bind_some]
  have hdiffers : last.parameters.get (recipeAxis recipe).key ≠
      parameters.get (recipeAxis recipe).key := by
    obtain ⟨-, -, -, -, -, hvaries⟩ := (mem_baselineRuns hcontext).mp hlast
    rw [RunRecord.variesIn, Bool.and_eq_true] at hvaries
    simpa using hvaries.1
  have hrepeated := hlatest.repeated
  rw [hsame] at hrepeated
  refine ⟨context, hrecipe, turns_iff recipe, ?_, ?_, hcontext, hrepeated, ?_, ?_, ?_⟩
  · exact Parameters.accepted_set ((recipeAxis recipe).key_mem parameters)
      (Parameters.checked hvalue)
  · rw [hnumber]
    exact hdiffers
  · intro htrue
    cases htrue
  · intro htrue
    cases htrue
  · intro _
    by_cases hequal : last.parameters.entries.length = parameters.entries.length
    · -- the two runs that were compared
      refine ⟨_, hpair, (lastTwo_sublist _).trans (List.filter_sublist.trans
        List.filter_sublist), ?_⟩
      intro r hr
      have hr' := (lastTwo_sublist _).subset hr
      rw [List.mem_filter, decide_eq_true_eq] at hr'
      obtain ⟨hbaseline, hsetting⟩ := hr'
      obtain ⟨-, hrun, hvalid, -, hin, hvaries⟩ := (mem_baselineRuns hcontext).mp hbaseline
      refine ⟨hrun, hvalid, hin, ?_, differOnlyIn_iff.mpr ⟨hvaries, ?_⟩⟩
      · rw [hnumber]
        exact Parameters.same_iff.mp hsetting _
      · rw [← hequal]
        exact hsetting.1
    · -- two other records
      refine ⟨(settingRuns runs recipeId parameters (recipeAxis recipe) last.parameters).take 2,
        List.length_take_of_le (hsize hequal),
        (List.take_sublist 2 _).trans List.filter_sublist, fun r hr => ?_⟩
      obtain ⟨-, hrun, hvalid, hin, hget, hdiffer⟩ :=
        (mem_settingRuns hcontext).mp (List.mem_of_mem_take hr)
      exact ⟨hrun, hvalid, hin, hget.trans hnumber.symm, hdiffer⟩

end Sound

/-- **Soundness of the recommendation.**  Every suggestion is sound exactly when no lower
limit is tried at the lower bound, and no setting is restored from runs with more
parameters than there are now, unless two other records used it with as many. -/
theorem jerk_advice_iff (runs : List (RunRecord K)) (recipeId : String)
    (parameters : Parameters) :
    (∀ advice axis value, recommend runs recipeId parameters = some advice →
      advice.suggestion = some (axis, value) → ∃ recipe context,
        AdviceSound runs recipeId parameters recipe context axis value advice.experimental) ↔
      AdviceCondition runs recipeId parameters := by
  constructor
  · intro hsound
    constructor
    · intro recipe a hrecipe hlowers hlimit
      obtain ⟨w, hw, -, -, hrepeats⟩ := candidate_spec hlimit
      obtain ⟨advice, hadvice, hs, hexperimental⟩ := recommend_of_lowers hlowers hrecipe hw
      obtain ⟨recipe', context, h⟩ := hsound advice _ _ hadvice hs
      -- the candidate is the current value
      refine h.changes ?_
      rw [hlimit, hrepeats rfl]
      rfl
    · intro recipe old c hrecipe hrestores _
      obtain ⟨v, hv⟩ := Parameters.mem_keys.mp ((recipeAxis recipe).key_mem old)
      obtain ⟨value, hvalue, hnumber⟩ := Option.bind_eq_some_iff.mp hv
      obtain ⟨advice, hadvice, hs, hexperimental⟩ :=
        recommend_of_restores hrestores hrecipe hvalue
      obtain ⟨recipe', context, h⟩ := hsound advice _ _ hadvice hs
      obtain ⟨two, hlength, hsub, htwo⟩ := h.earlier hexperimental
      have hmem : ∀ r ∈ two,
          r ∈ settingRuns runs recipeId parameters (recipeAxis recipe) old := by
        intro r hr
        obtain ⟨hrun, hvalid, hin, hget, hdiffer⟩ := htwo r hr
        refine (mem_settingRuns h.latest).mpr
          ⟨hsub.subset hr, hrun, hvalid, hin, ?_, hdiffer⟩
        rw [hget, hnumber, hv]
      have hkept : two.Sublist (settingRuns runs recipeId parameters (recipeAxis recipe) old) :=
        List.sublist_filter_iff.mpr ⟨two, hsub,
          (List.filter_eq_self.mpr fun r hr => (List.mem_filter.mp (hmem r hr)).2).symm⟩
      rw [← hlength]
      exact hkept.length_le
  · intro hcondition advice axis value hadvice hs
    obtain ⟨recipe, hrecipe, rfl, hbranch⟩ := recommend_suggestion hadvice hs
    refine ⟨recipe, ?_⟩
    rcases hbranch with ⟨hexperimental, old, c, hrestores, hvalue⟩ |
      ⟨hexperimental, a, w, hlowers, hw, rfl⟩
    · rw [hexperimental]
      exact sound_of_restores hrecipe hrestores hvalue
        (hcondition.restores recipe old c hrecipe hrestores)
    · rw [hexperimental]
      exact sound_of_lowers hrecipe hlowers hw (hcondition.lowers recipe a hrecipe hlowers)

/-- The sample parameters with the linear jerk limit at its lower bound. -/
def lowestParameters : Parameters :=
  sampleParameters.set "jx" (.float 0.01) (by decide) (by decide +kernel)

/-- The five parameters of an older firmware. -/
def fiveParameters : Parameters where
  dict :=
    { items :=
        [("ax", .float 0.7), ("jx", .float 1.6), ("aw", .int 3), ("jw", .int 10),
         ("k_icr", .float 1.5)]
      nodup := by decide }
  accepted := validateParameters_ok.mpr ⟨rfl, .inr (by decide +kernel), by decide +kernel⟩

/-- Two runs with transients at the lower bound: 20% less than 0.01 is 0.01.  And two runs
with five parameters and more transients, after two with all of them: the restored value is
one that no run with five parameters had. -/
theorem jerk_advice_repeated :
    let knocking := { sampleMetrics 0 with knocks := some 3 }
    let lowest := sampleRecord "ramp" "wood" knocking lowestParameters
    let earlier := sampleRecord "ramp" "wood" (sampleMetrics 0) sampleParameters
    let five := sampleRecord "ramp" "wood" knocking fiveParameters
    ((recommend [lowest, lowest] "ramp" lowestParameters).map fun advice =>
        (advice.suggestion, advice.experimental)) = some (some (.jx, .float 0.01), true) ∧
    lowestParameters.get "jx" = some 0.01 ∧
    ((recommend [earlier, earlier, five, five] "ramp" fiveParameters).map fun advice =>
        (advice.suggestion, advice.experimental)) = some (some (.jx, .int 2), false) ∧
    ∀ r ∈ [earlier, earlier, five, five], r.parameters.get "jx" = some 2 →
      r.parameters.get "radius" ≠ fiveParameters.get "radius" := by
  decide +kernel

/-- Above the bound, a fifth less: 2 becomes 1.6. -/
example :
    let r := sampleRecord "ramp" "wood" (sampleMetrics 0) sampleParameters
    ((recommend [r, r] "ramp" sampleParameters).bind fun advice => advice.suggestion) =
      some (.jx, .float 1.6) := by
  decide +kernel

end CalibrationServer
