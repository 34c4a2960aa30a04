/-
The skid and radius candidates (`summarize` and `geometry_summary` of
`tools/calibration/trials.py`), over an exact field.

The summary of the skid ratio depends on one context only: the parameters, the surface
and the payload of the last accepted spin.  Within it the last accepted run of each
recipe counts.

* `summarize_eq` — what the grouping loop and its last key amount to;
* `skid_and_radius_sound` — what a suggestion rests on, and what cannot change it;
* `skid_fit_lost` — an accepted run of another step does not fix the context.
-/
import Base101.TrialRecords

namespace CalibrationServer

variable {K : Type} [Field K] [LinearOrder K] [FloorRing K] [Libm K]

/-! ### Contexts -/

/-- The same parameters, surface and payload. -/
def SameContext (r last : RunRecord K) : Prop :=
  r.parameters.Same last.parameters ∧ r.surface = last.surface ∧ r.payload = last.payload

instance : DecidableRel (SameContext (K := K)) := fun _ _ => inferInstanceAs (Decidable (_ ∧ _))

omit [Field K] [LinearOrder K] [FloorRing K] [Libm K] in
theorem key_eq_iff {r last : RunRecord K} : r.key = last.key ↔ SameContext r last := by
  rw [RunRecord.key, RunRecord.key, Prod.mk.injEq, Prod.mk.injEq, Parameters.sortedItems_eq_iff,
    SameContext, Parameters.same_iff]

/-- The run was valid, and confirmed. -/
def RunRecord.accepted (r : RunRecord K) : Bool := r.valid && r.isGood

omit [Field K] [LinearOrder K] [FloorRing K] [Libm K] in
theorem RunRecord.accepted_iff {r : RunRecord K} :
    r.accepted = true ↔ r.valid = true ∧ r.isGood = true := by
  rw [RunRecord.accepted, Bool.and_eq_true]

/-- A run of a recipe of step 1. -/
def RunRecord.isSpin (r : RunRecord K) : Bool := r.recipe?.any fun recipe => recipe.step = 1

/-- The accepted runs of step 1. -/
def spins (runs : List (RunRecord K)) : List (RunRecord K) :=
  runs.filter fun r => r.accepted && r.isSpin

/-- Those in the context of a run. -/
def spinsLike (runs : List (RunRecord K)) (last : RunRecord K) : List (RunRecord K) :=
  (spins runs).filter fun r => SameContext r last

theorem spins_append (runs runs' : List (RunRecord K)) :
    spins (runs ++ runs') = spins runs ++ spins runs' := List.filter_append _ _

theorem mem_spinsLike {runs : List (RunRecord K)} {r last : RunRecord K} :
    r ∈ spinsLike runs last ↔
      r ∈ runs ∧ r.accepted = true ∧ r.isSpin = true ∧ SameContext r last := by
  rw [spinsLike, List.mem_filter, spins, List.mem_filter, Bool.and_eq_true, decide_eq_true_eq]
  tauto

/-! ### The grouping loop -/

/-- What a spin adds to the groups. -/
def groupEntry (r : RunRecord K) : GroupKey × String × RunRecord K := (r.key, r.recipe, r)

/-- The loop over accepted runs: the groups of the spins, and the key of the last spin. -/
theorem foldlM_groupRun {l : List (RunRecord K)} (hknown : ∀ r ∈ l, r.recipe?.isSome = true) :
    l.foldlM groupRun ⟨none, .empty⟩ =
      some ⟨(l.filter RunRecord.isSpin).getLast?.map RunRecord.key,
        .group ((l.filter RunRecord.isSpin).map groupEntry)⟩ := by
  induction l using List.reverseRecOn with
  | nil => rfl
  | append_singleton l r ih =>
    obtain ⟨recipe, hrecipe⟩ := Option.isSome_iff_exists.mp (hknown r (by simp))
    rw [List.foldlM_append, ih fun r' hr' => hknown r' (List.mem_append_left _ hr')]
    have hstep : [r].foldlM groupRun = fun g : SkidGroups K => groupRun g r := by
      funext g
      rw [List.foldlM_cons]
      cases groupRun g r with
      | none => rfl
      | some g' => rfl
    rw [hstep]
    simp only [Option.bind_eq_bind, Option.bind_some, groupRun, hrecipe, Option.map_some]
    rw [List.filter_append]
    by_cases hspin : recipe.step = 1
    · have hkept : [r].filter RunRecord.isSpin = [r] := by
        rw [List.filter_cons_of_pos (by simp [RunRecord.isSpin, hrecipe, hspin]), List.filter_nil]
      rw [if_neg (not_not.mpr hspin), hkept, List.getLast?_concat, List.map_append,
        List.map_singleton, OrderedDict.group_concat]
      rfl
    · have hskipped : [r].filter RunRecord.isSpin = [] := by
        rw [List.filter_cons_of_neg (by simp [RunRecord.isSpin, hrecipe, hspin]), List.filter_nil]
      rw [if_pos hspin, hskipped, List.append_nil]

omit [Field K] [LinearOrder K] [FloorRing K] [Libm K] in
theorem members_groupEntry (l : List (RunRecord K)) (last : RunRecord K) :
    OrderedDict.members last.key (l.map groupEntry) =
      (l.filter fun r => SameContext r last).map fun r => (r.recipe, r) := by
  rw [OrderedDict.members, List.filter_map, List.map_map]
  have hcondition : ((fun p : GroupKey × String × RunRecord K => decide (p.1 = last.key)) ∘
      groupEntry) = fun r => decide (SameContext r last) := by
    funext r
    exact decide_eq_decide.mpr key_eq_iff
  rw [hcondition]
  rfl

/-- **What `summarize` does**: the summary of the context of the last accepted spin. -/
theorem summarize_eq {runs : List (RunRecord K)}
    (hknown : ∀ r ∈ runs, r.accepted = true → r.recipe?.isSome = true) :
    summarize runs =
      match (spins runs).getLast? with
      | none => some noSpins
      | some last => summarizeSeries last.key (lastByRecipe (spinsLike runs last)) := by
  have hspins : (runs.filter RunRecord.accepted).filter RunRecord.isSpin = spins runs := by
    rw [List.filter_filter, spins]
    refine List.filter_congr fun r _ => Bool.and_comm _ _
  have hloop := foldlM_groupRun (l := runs.filter RunRecord.accepted) fun r hr =>
    hknown r (List.mem_of_mem_filter hr) (List.of_mem_filter hr)
  rw [hspins] at hloop
  rw [summarize]
  have haccepted : (fun r : RunRecord K => r.valid && r.isGood) = RunRecord.accepted := rfl
  rw [haccepted, hloop]
  cases hlast : (spins runs).getLast? with
  | none =>
    rw [List.getLast?_eq_none_iff.mp hlast]
    rfl
  | some last =>
    have hmem : last.key ∈ ((spins runs).map groupEntry).map Prod.fst := by
      rw [List.map_map]
      exact List.mem_map_of_mem (List.mem_of_getLast? hlast)
    have hgroup : (OrderedDict.group ((spins runs).map groupEntry)).get? last.key =
        some (lastByRecipe (spinsLike runs last)) := by
      rw [OrderedDict.get?_group, if_pos hmem, members_groupEntry]
      rfl
    have hnonempty : (OrderedDict.group ((spins runs).map groupEntry)).items.isEmpty = false := by
      have hitem := OrderedDict.get?_eq_some_iff.mp hgroup
      rw [List.isEmpty_eq_false_iff]
      exact List.ne_nil_of_mem hitem
    simp only [Option.bind_eq_bind, Option.bind_some, hnonempty, Option.map_some, hgroup]
    rfl

/-! ### What the analysis promises -/

theorem RunRecord.Analyzed.known {r : RunRecord K} (h : r.Analyzed) : r.recipe?.isSome = true := by
  obtain ⟨a, ha, -⟩ := h
  obtain ⟨recipe, -, hrecipe, -⟩ := analyze_reasons ha
  rw [RunRecord.recipe?]
  exact Option.isSome_iff_exists.mpr ⟨recipe, hrecipe⟩

/-- The ratio of a valid spin is within the supported range. -/
theorem RunRecord.Analyzed.ratio {r : RunRecord K} (h : r.Analyzed) (hvalid : r.valid = true)
    (hspin : r.isSpin = true) : ∃ ratio, r.kIcr = some ratio ∧ 1 ≤ ratio ∧ ratio ≤ 5 := by
  obtain ⟨a, ha, hstored⟩ := h
  have hkIcr : r.kIcr = a.kIcr := by
    rw [RunRecord.kIcr, hstored]
    rfl
  rw [RunRecord.valid, hstored] at hvalid
  obtain ⟨recipe, htrial⟩ := analyze_valid ha hvalid
  have hrecipe : r.recipe? = some recipe := htrial.recipe
  have hstep : recipe.step = 1 := by
    rw [RunRecord.isSpin, hrecipe] at hspin
    simpa using hspin
  obtain ⟨stage, -, hratio⟩ := htrial.ratio hstep
  obtain ⟨hfirst, hreasons⟩ := Prod.mk.inj hratio
  rw [hkIcr]
  simp only [List.append_eq_nil_iff, reasonIf_eq_nil] at hreasons
  have hrange := hreasons.2
  rw [hfirst] at hrange
  cases hvalue : a.kIcr with
  | none =>
    rw [hvalue] at hrange
    cases hrange
  | some ratio =>
    rw [hvalue] at hrange
    have hfive : (5.0 : K) = 5 := by norm_num
    rw [hfive] at hrange
    refine ⟨ratio, rfl, ?_⟩
    simpa using hrange

/-- No recipe of step 1 is a verification turn. -/
theorem spin_recipes {recipe : SerialLink.Recipe K} (hmem : recipe ∈ SerialLink.recipes)
    (hstep : recipe.step = 1) : recipe.verification = false := by
  have hall : (SerialLink.recipes (F := K)).all
      (fun r => r.step ≠ 1 || !r.verification) = true := rfl
  simpa [hstep] using List.all_eq_true.mp hall recipe hmem

theorem RunRecord.recipe_mem {r : RunRecord K} {recipe : SerialLink.Recipe K}
    (h : r.recipe? = some recipe) : recipe ∈ SerialLink.recipes := by
  rw [RunRecord.recipe?, SerialLink.byId] at h
  exact List.mem_of_find?_eq_some h

/-- A spin is of one of the twelve recipes of its step. -/
theorem isSpin_recipe {r : RunRecord K} (h : r.isSpin = true) :
    r.recipe ∈ SerialLink.subtests K 1 false := by
  obtain ⟨recipe, hrecipe, hstep⟩ := (Option.any_eq_true _ _).mp h
  have hstep : recipe.step = 1 := by simpa using hstep
  have hmem := mem_subtests hrecipe
  rwa [hstep, spin_recipes (RunRecord.recipe_mem hrecipe) hstep] at hmem

/-! ### The candidates -/

/-- What a new `k_icr` rests on: twelve runs and their ratios. -/
structure SkidFit (runs : List (RunRecord K)) (last : RunRecord K) (twelve : List (RunRecord K))
    (ratios : List K) (median suggestion : K) : Prop where
  /-- The context is that of the last accepted spin. -/
  isLast : (spins runs).getLast? = some last
  /-- There is one run of each of the twelve recipes of step 1. -/
  recipes : (twelve.map fun r => r.recipe).Perm (SerialLink.subtests K 1 false)
  length : twelve.length = 12
  accepted : ∀ r ∈ twelve, r ∈ runs ∧ r.valid = true ∧ r.isGood = true ∧ SameContext r last
  /-- It is the last accepted one of its recipe in the context. -/
  latest : ∀ r ∈ twelve, LastOfRecipe (spinsLike runs last) r
  values : twelve.map RunRecord.kIcr = ratios.map some
  range : ∀ x ∈ ratios, 1 ≤ x ∧ x ≤ 5
  total : ∀ x ∈ ratios, ∀ y ∈ ratios, x - y ≤ 0.15 * median
  middle : ratios.median = some median
  rounded : suggestion = roundTo 3 median
  limits : 1 ≤ suggestion ∧ suggestion ≤ 5

/-- What a new `radius` rests on: four reference trials and their scales. -/
structure RadiusFit (runs : List (RunRecord K)) (parameters : Parameters) (last : RunRecord K)
    (four : List (RunRecord K)) (ratios : List K) (median suggestion : K) : Prop where
  /-- There is one run of each of the four reference recipes. -/
  recipes : (four.map fun r => r.recipe).Perm (SerialLink.subtests K 3 false)
  length : four.length = 4
  accepted : ∀ r ∈ four, r ∈ runs ∧ r.valid = true ∧ r.isGood = true ∧
    r.parameters.Same parameters ∧ r.context = last.context
  scales : four.map referenceRatio = ratios.map some
  middle : ratios.median = some median
  total : ∀ x ∈ ratios, ∀ y ∈ ratios, x - y ≤ 0.1 * median
  scaled : ∃ radius, parameters.get "radius" = some radius ∧
    suggestion = roundTo 4 ((radius : K) * median)
  limits : 0.02 ≤ suggestion ∧ suggestion ≤ 0.1

omit [Field K] [LinearOrder K] [FloorRing K] [Libm K] in
theorem length_values {series : OrderedDict String (RunRecord K)} :
    series.values.length = series.items.length := List.length_map _

variable [IsStrictOrderedRing K]

omit [IsStrictOrderedRing K] in
/-- The suggestion of a group. -/
theorem summarizeSeries_suggestion {key : GroupKey} {series : OrderedDict String (RunRecord K)}
    {s : SkidSummary K} {k : K} (h : summarizeSeries key series = some s)
    (hk : s.suggestion = some k) : ∃ (ratios : List K) (median range : K),
      series.values.map RunRecord.kIcr = ratios.map some ∧ ratios.median = some median ∧
        ratios.relativeRange = some range ∧ range ≤ 0.15 ∧ series.items.length = 12 ∧
        k = roundTo 3 median := by
  obtain ⟨ratios, hratios, h⟩ := Option.bind_eq_some_iff.mp h
  obtain ⟨median, hmedian, h⟩ := Option.bind_eq_some_iff.mp h
  obtain ⟨range, hrange, h⟩ := Option.bind_eq_some_iff.mp h
  obtain ⟨rows, -, h⟩ := Option.bind_eq_some_iff.mp h
  obtain ⟨bySpeed, -, h⟩ := Option.bind_eq_some_iff.mp h
  obtain ⟨byDirection, -, h⟩ := Option.bind_eq_some_iff.mp h
  obtain rfl := Option.some.inj h
  dsimp only at hk
  split at hk
  next hstable =>
    exact ⟨ratios, median, range, mapM_eq_some.mp hratios, hmedian, hrange, hstable.1, hstable.2,
      (Option.some.inj hk).symm⟩
  next => cases hk

omit [FloorRing K] [Libm K] [IsStrictOrderedRing K] in
/-- The values of runs whose ratios are in range. -/
theorem ratios_bounds {rows : List (RunRecord K)} {ratios : List K}
    (hratios : rows.map RunRecord.kIcr = ratios.map some)
    (hrows : ∀ r ∈ rows, ∃ ratio, r.kIcr = some ratio ∧ 1 ≤ ratio ∧ ratio ≤ 5) :
    ∀ x ∈ ratios, 1 ≤ x ∧ x ≤ 5 := by
  intro x hx
  have hsome : some x ∈ rows.map RunRecord.kIcr := by
    rw [hratios]
    exact List.mem_map_of_mem hx
  obtain ⟨r, hr, hkIcr⟩ := List.mem_map.mp hsome
  obtain ⟨ratio, hratio, hbounds⟩ := hrows r hr
  obtain rfl := Option.some.inj (hkIcr.symm.trans hratio)
  exact hbounds

/-- A suggested ratio is a fit. -/
theorem summarize_sound {runs : List (RunRecord K)} (hruns : ∀ r ∈ runs, r.Analyzed)
    {s : SkidSummary K} {k : K} (h : summarize runs = some s) (hk : s.suggestion = some k) :
    ∃ last twelve ratios median, SkidFit runs last twelve ratios median k := by
  rw [summarize_eq fun r hr _ => (hruns r hr).known] at h
  cases hlast : (spins runs).getLast? with
  | none =>
    rw [hlast] at h
    obtain rfl := Option.some.inj h
    cases hk
  | some last =>
    rw [hlast] at h
    obtain ⟨ratios, median, range, hratios, hmedian, hrange, hstable, hlength, hvalue⟩ :=
      summarizeSeries_suggestion h hk
    set twelve := (lastByRecipe (spinsLike runs last)).values with htwelve
    have hmem : ∀ r ∈ twelve, r ∈ runs ∧ r.accepted = true ∧ r.isSpin = true ∧
        SameContext r last := fun r hr => mem_spinsLike.mp (mem_lastByRecipe.mp hr).mem
    have hbounds : ∀ x ∈ ratios, 1 ≤ x ∧ x ≤ 5 := by
      refine ratios_bounds hratios fun r hr => ?_
      obtain ⟨hrun, haccepted, hspin, -⟩ := hmem r hr
      exact (hruns r hrun).ratio (RunRecord.accepted_iff.mp haccepted).1 hspin
    obtain ⟨hlow, hhigh⟩ := List.median_mem_Icc hbounds hmedian
    have hpos : 0 < median := by linarith
    refine ⟨last, twelve, ratios, median, hlast, ?_, ?_, ?_, ?_, hratios, hbounds, ?_, hmedian,
      hvalue, ?_, ?_⟩
    · refine recipes_lastByRecipe (fun r hr => isSpin_recipe (mem_spinsLike.mp hr).2.2.1) ?_
      rw [hlength]
      exact le_refl 12
    · rw [htwelve, length_values, hlength]
    · intro r hr
      obtain ⟨hrun, haccepted, -, hcontext⟩ := hmem r hr
      obtain ⟨hvalid, hgood⟩ := RunRecord.accepted_iff.mp haccepted
      exact ⟨hrun, hvalid, hgood, hcontext⟩
    · exact fun r hr => mem_lastByRecipe.mp hr
    · exact fun x hx y hy => List.sub_le_of_relativeRange hrange hmedian hpos hstable hx hy
    · rw [hvalue]
      exact le_roundTo (n := 1000) (by norm_num) hlow
    · rw [hvalue]
      exact roundTo_le (n := 5000) (by norm_num) hhigh

/-! ### Other contexts -/

omit [IsStrictOrderedRing K] in
/-- The spins in the context of a run are found among the runs in it. -/
theorem spinsLike_filter (runs : List (RunRecord K)) (last : RunRecord K) :
    spinsLike runs last = spins (runs.filter fun r => SameContext r last) := by
  rw [spinsLike, spins, spins, List.filter_filter, List.filter_filter]
  exact List.filter_congr fun r _ => Bool.and_comm _ _

omit [IsStrictOrderedRing K] in
/-- Runs of other contexts before the last accepted spin do not matter. -/
theorem summarize_other {before before' after : List (RunRecord K)} {last : RunRecord K}
    (hruns : ∀ r ∈ before ++ last :: after, r.Analyzed)
    (hruns' : ∀ r ∈ before' ++ last :: after, r.Analyzed)
    (hlast : last.accepted = true ∧ last.isSpin = true) (hafter : spins after = [])
    (hsame : (before.filter fun r => SameContext r last) =
      before'.filter fun r => SameContext r last) :
    summarize (before ++ last :: after) = summarize (before' ++ last :: after) := by
  have hspins : ∀ earlier : List (RunRecord K),
      spins (earlier ++ last :: after) = spins earlier ++ [last] := by
    intro earlier
    have hkept : spins [last] = [last] := by
      rw [spins, List.filter_cons_of_pos (by rw [hlast.1, hlast.2]; rfl), List.filter_nil]
    rw [← List.singleton_append, ← List.append_assoc, spins_append, spins_append, hkept, hafter,
      List.append_nil]
  have hlike : spinsLike (before ++ last :: after) last =
      spinsLike (before' ++ last :: after) last := by
    rw [spinsLike_filter, spinsLike_filter, List.filter_append, List.filter_append, hsame]
  rw [summarize_eq fun r hr _ => (hruns r hr).known,
    summarize_eq fun r hr _ => (hruns' r hr).known, hspins, hspins, List.getLast?_concat,
    List.getLast?_concat]
  dsimp only
  rw [hlike]

/-! ### The radius -/

omit [IsStrictOrderedRing K] in
theorem isReference_eq_true {parameters : Parameters} {r : RunRecord K}
    (h : isReference parameters r = some true) :
    r.recipe ∈ SerialLink.subtests K 3 false ∧ r.valid = true ∧ r.isGood = true ∧
      r.parameters.Same parameters := by
  obtain ⟨recipe, hrecipe, h⟩ := Option.map_eq_some_iff.mp h
  simp only [Bool.and_eq_true, decide_eq_true_eq, Bool.not_eq_true'] at h
  obtain ⟨⟨⟨⟨⟨⟨hstep, hverification⟩, hvalid⟩, hgood⟩, -⟩, hsame⟩, -⟩ := h
  have hmem := mem_subtests hrecipe
  rw [hstep, hverification] at hmem
  exact ⟨hmem, hvalid, hgood, hsame⟩

omit [Libm K] [IsStrictOrderedRing K] in
/-- A suggested radius is scaled by references that agree. -/
theorem summarizeReferences_suggestion {parameters : Parameters}
    {series : OrderedDict String (RunRecord K)} {s : RadiusSummary K} {radius : K}
    (h : summarizeReferences parameters series = some s) (hradius : s.suggestion = some radius) :
    ∃ (ratios : List K) (median range : K) (scale : ℚ),
      series.values.map referenceRatio = ratios.map some ∧ ratios.median = some median ∧
        parameters.get "radius" = some scale ∧ ratios.relativeRange = some range ∧
        range ≤ 0.1 ∧ (0.02 ≤ (scale : K) * median ∧ (scale : K) * median ≤ 0.1) ∧
        radius = roundTo 4 ((scale : K) * median) := by
  obtain ⟨ratios, hratios, h⟩ := Option.bind_eq_some_iff.mp h
  obtain ⟨median, hmedian, h⟩ := Option.bind_eq_some_iff.mp h
  obtain ⟨scale, hscale, h⟩ := Option.bind_eq_some_iff.mp h
  obtain ⟨range, hrange, h⟩ := Option.bind_eq_some_iff.mp h
  obtain rfl := Option.some.inj h
  split at hradius
  · cases hradius
  next hgood =>
    rw [not_or, not_not, not_lt] at hgood
    exact ⟨ratios, median, range, scale, mapM_eq_some.mp hratios, hmedian, hscale, hrange,
      hgood.1, hgood.2, (Option.some.inj hradius).symm⟩

omit [Libm K] [IsStrictOrderedRing K] in
/-- It is made of the rows in the context of the last one, with four recipes. -/
theorem summarizeRows_suggestion {parameters : Parameters} {rows : List (RunRecord K)}
    {s : RadiusSummary K} {radius : K} (h : summarizeRows parameters rows = some s)
    (hradius : s.suggestion = some radius) : ∃ last : RunRecord K,
      4 ≤ (lastByRecipe (rows.filter fun r => r.context = last.context)).items.length ∧
        summarizeReferences parameters
          (lastByRecipe (rows.filter fun r => r.context = last.context)) = some s := by
  rw [summarizeRows] at h
  cases hlast : rows.getLast? with
  | none =>
    rw [hlast] at h
    obtain rfl := Option.some.inj h
    cases hradius
  | some last =>
    rw [hlast] at h
    dsimp only at h
    split at h
    · obtain rfl := Option.some.inj h
      cases hradius
    next hlength => exact ⟨last, Nat.le_of_not_lt hlength, h⟩

/-- A suggested radius is a fit. -/
theorem geometrySummary_sound {runs : List (RunRecord K)} {parameters : Parameters}
    {s : RadiusSummary K} {radius : K} (h : geometrySummary runs parameters = some s)
    (hradius : s.suggestion = some radius) :
    ∃ last four ratios median, RadiusFit runs parameters last four ratios median radius := by
  obtain ⟨rows, hrows, h⟩ := Option.bind_eq_some_iff.mp h
  have hrow : ∀ r ∈ rows, r ∈ runs ∧ isReference parameters r = some true := by
    intro r hr
    rw [filterOption_eq_some hrows, List.mem_filter, decide_eq_true_eq] at hr
    exact hr
  obtain ⟨last, hlength, h⟩ := summarizeRows_suggestion h hradius
  set series := lastByRecipe (rows.filter fun r => r.context = last.context) with hseries
  obtain ⟨ratios, median, range, scale, hratios, hmedian, hscale, hrange, hstable, ⟨hlow, hhigh⟩,
    hvalue⟩ := summarizeReferences_suggestion h hradius
  have hmem : ∀ r ∈ series.values, r ∈ rows ∧ r.context = last.context := by
    intro r hr
    have hr := (mem_lastByRecipe.mp hr).mem
    rwa [List.mem_filter, decide_eq_true_eq] at hr
  have hrecipes : (series.values.map fun r => r.recipe).Perm
      (SerialLink.subtests K 3 false) := by
    refine recipes_lastByRecipe (fun r hr => ?_) hlength
    exact (isReference_eq_true (hrow r (List.mem_of_mem_filter hr)).2).1
  have hpos : 0 < median := by
    -- the scale is in its range, so the median is positive
    have hscaled : (0.02 : ℚ) ≤ scale := (Parameters.get_bounds hscale rfl).1
    have hscalePos : (0 : ℚ) < scale := by linarith
    have hprod : 0 < (scale : K) * median := by linarith
    exact pos_of_mul_pos_right hprod (by exact_mod_cast hscalePos.le)
  refine ⟨last, series.values, ratios, median, hrecipes, ?_, ?_, hratios, hmedian, ?_,
    ⟨scale, hscale, hvalue⟩, ?_, ?_⟩
  · have hfour := hrecipes.length_eq
    rw [List.length_map] at hfour
    exact hfour
  · intro r hr
    obtain ⟨hin, hcontext⟩ := hmem r hr
    obtain ⟨hrun, href⟩ := hrow r hin
    obtain ⟨-, hvalid, hconfirmed, hsame⟩ := isReference_eq_true href
    exact ⟨hrun, hvalid, hconfirmed, hsame, hcontext⟩
  · exact fun x hx y hy => List.sub_le_of_relativeRange hrange hmedian hpos hstable hx hy
  · rw [hvalue]
    exact le_roundTo (n := 200) (by norm_num) hlow
  · rw [hvalue]
    exact roundTo_le (n := 1000) (by norm_num) hhigh

/-! ### The candidates -/

variable (K) in
/-- **Soundness of the candidates.**  A new `k_icr` rests on twelve spins in the context of
the last one; runs of other contexts before that one do not matter; and a new `radius`
rests on the four references of one context. -/
theorem skid_and_radius_sound :
    (∀ (runs : List (RunRecord K)) (s : SkidSummary K) (k : K), (∀ r ∈ runs, r.Analyzed) →
      summarize runs = some s → s.suggestion = some k →
      ∃ last twelve ratios median, SkidFit runs last twelve ratios median k) ∧
    (∀ (before before' after : List (RunRecord K)) (last : RunRecord K),
      (∀ r ∈ before ++ last :: after, r.Analyzed) → (∀ r ∈ before' ++ last :: after, r.Analyzed) →
      last.accepted = true ∧ last.isSpin = true → spins after = [] →
      (before.filter fun r => SameContext r last) = (before'.filter fun r => SameContext r last) →
      summarize (before ++ last :: after) = summarize (before' ++ last :: after)) ∧
    ∀ (runs : List (RunRecord K)) (parameters : Parameters) (s : RadiusSummary K) (radius : K),
      (∀ r ∈ runs, r.Analyzed) → geometrySummary runs parameters = some s →
      s.suggestion = some radius →
      ∃ last four ratios median, RadiusFit runs parameters last four ratios median radius := by
  refine ⟨?_, ?_, ?_⟩
  · intro runs s k hruns h hk
    exact summarize_sound hruns h hk
  · intro before before' after last hruns hruns' hlast hafter hsame
    exact summarize_other hruns hruns' hlast hafter hsame
  · intro runs parameters s radius _ h hradius
    exact geometrySummary_sound h hradius

/-- The trials of some recipes on a floor. -/
def sampleTrials (recipes : List (SerialLink.Recipe ℚ)) (surface : String) :
    List (RunRecord ℚ) :=
  recipes.map fun recipe =>
    let wz := (recipe.stages.head?.map fun stage => stage.wz).getD 0
    sampleRecord recipe.id surface (sampleMetrics (if wz < 0 then -1 else 1)) sampleParameters

/-- Twelve spins on wood: the ratio of each is 1.5.  A spin on a carpet before them changes
nothing, and four references give a radius. -/
theorem skid_and_radius_sound_wood :
    (∃ last twelve ratios median,
      SkidFit (sampleTrials SerialLink.spinRecipes "wood") last twelve ratios median (3 / 2)) ∧
    summarize (sampleRecord "spin-0.2-CCW-1" "carpet" (sampleMetrics 1) sampleParameters ::
        sampleTrials SerialLink.spinRecipes "wood") =
      summarize (sampleTrials SerialLink.spinRecipes "wood") ∧
    ∃ last four ratios median, RadiusFit (sampleTrials SerialLink.distanceRecipes "wood")
      sampleParameters last four ratios median 0.037 := by
  have h := skid_and_radius_sound ℚ
  refine ⟨?_, ?_, ?_⟩
  · have hsome : ((summarize (sampleTrials SerialLink.spinRecipes "wood")).bind
        SkidSummary.suggestion) = some (3 / 2) := by decide +kernel
    obtain ⟨s, hs, hk⟩ := Option.bind_eq_some_iff.mp hsome
    exact h.1 _ s _ (by decide +kernel) hs hk
  · have hsplit : sampleTrials SerialLink.spinRecipes "wood" = _ :=
      (List.dropLast_append_getLast (List.cons_ne_nil _ _)).symm
    rw [hsplit, ← List.cons_append]
    refine h.2.1 _ _ [] _ (by decide +kernel) (by decide +kernel) (by decide +kernel) rfl ?_
    exact List.filter_cons_of_neg (by decide +kernel)
  · have hsome : ((geometrySummary (sampleTrials SerialLink.distanceRecipes "wood")
        sampleParameters).bind RadiusSummary.suggestion) = some 0.037 := by decide +kernel
    obtain ⟨s, hs, hradius⟩ := Option.bind_eq_some_iff.mp hsome
    exact h.2.2 _ _ s _ (by decide +kernel) hs hradius

/-- A spin on a carpet before the last accepted run, which brakes on the wood: the group is
that of the carpet. -/
theorem skid_fit_lost :
    let spins := sampleTrials SerialLink.spinRecipes "wood"
    let carpet := sampleRecord "spin-0.2-CCW-1" "carpet" (sampleMetrics 1) sampleParameters
    let brake := sampleRecord "brake-0.1-1" "wood" (sampleMetrics 1) sampleParameters
    (∀ r ∈ spins ++ [carpet, brake], r.Analyzed ∧ r.accepted = true) ∧
    (∀ r ∈ spins, SameContext r brake) ∧ ¬SameContext carpet brake ∧
    (summarize (spins ++ [brake])).map SkidSummary.suggestion = some (some (3 / 2)) ∧
    (summarize (spins ++ [carpet, brake])).map SkidSummary.suggestion = some none := by
  decide +kernel

end CalibrationServer
