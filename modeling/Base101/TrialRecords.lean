/-
The records of finished trials, and what is proposed from them
(`tools/calibration/trials.py`).

`summarize` fits the skid ratio to the spins on the floor, and `geometry_summary` the
wheel radius to measured distances.  A record holds a dictionary of parameters that
`validate_parameters` accepts; the numbers are exact, and `none` is an exception.

* `Parameters.same_iff`, `Parameters.sortedItems_eq_iff` — two dictionaries are equal, and
  are the same key of a group, when they hold the same numbers;
* `Parameters.accepted_set` — a dictionary in which one accepted value replaces another.
-/
import Base101.CalibrationServer
import Base101.SkidRatio
import Base101.OrderedDict
import Base101.Statistics

namespace CalibrationServer

open Double

/-! ### Parameters -/

namespace Dict

variable {d : Dict} {k k' : String} {value value' : JsonValue}

/-- `d[k] = value`. -/
def set (d : Dict) (k : String) (value : JsonValue) : Dict :=
  let changed := (⟨d.items, d.nodup⟩ : OrderedDict String JsonValue).insert k value
  ⟨changed.items, changed.nodup⟩

theorem mem_set : (k', value') ∈ (d.set k value).items ↔
    k' = k ∧ value' = value ∨ k' ≠ k ∧ (k', value') ∈ d.items := OrderedDict.mem_insert

theorem keys_set (hk : k ∈ d.keys) : (d.set k value).keys = d.keys := by
  rw [keys] at hk
  have hkeys := OrderedDict.keys_setItem k value d.items
  rwa [if_pos hk] at hkeys

/-- A dictionary with the keys of a table has each of them once. -/
theorem SameKeys.perm {table : List (String × ℚ × ℚ)} (h : d.SameKeys table)
    (hnodup : (table.map Prod.fst).Nodup) : d.keys.Perm (table.map Prod.fst) :=
  (List.perm_ext_iff_of_nodup d.nodup hnodup).mpr fun _ => ⟨fun hk => h.1 hk, fun hk => h.2 hk⟩

end Dict

/-- A dictionary that `validate_parameters` accepts. -/
structure Parameters where
  dict : Dict
  accepted : validateParameters (some dict) = .ok dict

namespace Parameters

/-- `p.get(key)`. -/
def get (p : Parameters) (key : String) : Option ℚ := p.dict.number key

/-- The pairs, each with its number. -/
def entries (p : Parameters) : List (String × ℚ) :=
  p.dict.items.filterMap fun item => item.2.number.map fun v => (item.1, v)

/-- `p == q`. -/
def Same (p q : Parameters) : Prop :=
  p.entries.length = q.entries.length ∧ ∀ item ∈ p.entries, q.get item.1 = some item.2

instance : DecidableRel Same := fun _ _ => inferInstanceAs (Decidable (_ ∧ _))

/-- `tuple(sorted(p.items()))`. -/
def sortedItems (p : Parameters) : List (Lex (String × ℚ)) :=
  (p.entries.map toLex).insertionSort (· ≤ ·)

variable {p q : Parameters} {k : String} {v : ℚ}

theorem mem_entries : (k, v) ∈ p.entries ↔ p.get k = some v := by
  rw [entries, List.mem_filterMap, get, Dict.number]
  constructor
  · rintro ⟨⟨k', value⟩, hmem, hvalue⟩
    obtain ⟨v', hnumber, heq⟩ := Option.map_eq_some_iff.mp hvalue
    obtain ⟨rfl, rfl⟩ := Prod.mk.inj heq
    rw [lookup_of_mem p.dict.nodup hmem]
    exact hnumber
  · intro h
    obtain ⟨value, hlookup, hnumber⟩ := Option.bind_eq_some_iff.mp h
    obtain ⟨before, after, hitems, -⟩ := List.lookup_eq_some_iff.mp hlookup
    refine ⟨(k, value), by rw [hitems]; simp, ?_⟩
    dsimp only
    rw [hnumber]
    rfl

/-- Every value of an accepted dictionary is a number. -/
theorem keys_entries (p : Parameters) : p.entries.map Prod.fst = p.dict.keys := by
  have hnumber : ∀ item ∈ p.dict.items, ∃ v, item.2.number = some v := by
    intro item hitem
    obtain ⟨-, -, hitems⟩ := validateParameters_ok.mp p.accepted
    obtain ⟨v, hv, -⟩ := checkParameter_ok (hitems item hitem)
    exact ⟨v, hv⟩
  rw [entries, Dict.keys]
  generalize p.dict.items = items at hnumber
  induction items with
  | nil => rfl
  | cons item items ih =>
    rw [List.forall_mem_cons] at hnumber
    obtain ⟨v, hv⟩ := hnumber.1
    rw [List.filterMap_cons_some (by rw [hv]; rfl), List.map_cons, List.map_cons, ih hnumber.2]

theorem nodup_entries (p : Parameters) : p.entries.Nodup := by
  have hkeys : (p.entries.map Prod.fst).Nodup := by
    rw [keys_entries]
    exact p.dict.nodup
  exact hkeys.of_map _

/-- Two dictionaries are permutations of each other when they hold the same numbers. -/
theorem perm_entries : p.entries.Perm q.entries ↔ ∀ key, p.get key = q.get key := by
  rw [List.perm_ext_iff_of_nodup p.nodup_entries q.nodup_entries]
  constructor
  · intro h key
    refine Option.ext fun v => ?_
    rw [← mem_entries, ← mem_entries]
    exact h (key, v)
  · rintro h ⟨key, v⟩
    rw [mem_entries, mem_entries, h key]

/-- Equal dictionaries hold the same numbers. -/
theorem same_iff : p.Same q ↔ ∀ key, p.get key = q.get key := by
  rw [← perm_entries, Same]
  constructor
  · rintro ⟨hlength, hitems⟩
    have hsubset : p.entries ⊆ q.entries := by
      rintro ⟨key, v⟩ hmem
      exact mem_entries.mpr (hitems _ hmem)
    exact (List.subperm_of_subset p.nodup_entries hsubset).perm_of_length_le hlength.ge
  · intro h
    refine ⟨h.length_eq, ?_⟩
    rintro ⟨key, v⟩ hmem
    exact mem_entries.mp (h.subset hmem)

/-- So do the keys of one group. -/
theorem sortedItems_eq_iff : p.sortedItems = q.sortedItems ↔ ∀ key, p.get key = q.get key := by
  rw [← perm_entries, sortedItems, sortedItems]
  have hsorted : ∀ l : List (Lex (String × ℚ)), (l.insertionSort (· ≤ ·)).Perm l :=
    fun l => List.perm_insertionSort _ l
  constructor
  · intro h
    have hperm := (hsorted (p.entries.map toLex)).symm.trans (h ▸ hsorted (q.entries.map toLex))
    exact (List.map_perm_map_iff toLex.injective).mp hperm
  · intro h
    have hmap := h.map (toLex : String × ℚ → Lex (String × ℚ))
    have hperm := ((hsorted _).trans hmap).trans (hsorted _).symm
    exact hperm.eq_of_sortedLE List.sortedLE_insertionSort List.sortedLE_insertionSort

theorem mem_keys : k ∈ p.dict.keys ↔ ∃ v, p.get k = some v := by
  rw [← keys_entries, List.mem_map]
  constructor
  · rintro ⟨⟨k', v⟩, hmem, rfl⟩
    exact ⟨v, mem_entries.mp hmem⟩
  · rintro ⟨v, h⟩
    exact ⟨(k, v), mem_entries.mpr h, rfl⟩

/-- Dictionaries of one size have the same names. -/
theorem keys_of_length (h : p.entries.length = q.entries.length) : p.dict.keys ⊆ q.dict.keys := by
  have hperm : ∀ r : Parameters, r.dict.keys.Perm (limits.map Prod.fst) ∨
      r.dict.keys.Perm (basicLimits.map Prod.fst) := by
    intro r
    obtain ⟨-, hkeys, -⟩ := validateParameters_ok.mp r.accepted
    exact hkeys.imp (fun h => h.perm (by decide)) fun h => h.perm (by decide)
  have hlength : p.dict.keys.length = q.dict.keys.length := by
    rw [← keys_entries, ← keys_entries, List.length_map, List.length_map, h]
  have hsizes : (limits.map Prod.fst).length ≠ (basicLimits.map Prod.fst).length := by decide
  rcases hperm p with hp | hp
  · rcases hperm q with hq | hq
    · exact (hp.trans hq.symm).subset
    · rw [hp.length_eq, hq.length_eq] at hlength
      exact absurd hlength hsizes
  · rcases hperm q with hq | hq
    · rw [hp.length_eq, hq.length_eq] at hlength
      exact absurd hlength.symm hsizes
    · exact (hp.trans hq.symm).subset

/-- Two dictionaries agree in all names but one when they are of one size and the second
holds what the first does under these names. -/
theorem agree_iff (hp : k ∈ p.dict.keys) (hq : k ∈ q.dict.keys) :
    (∀ key, key ≠ k → q.get key = p.get key) ↔
      (∀ item ∈ p.entries, item.1 = k ∨ q.get item.1 = some item.2) ∧
        q.entries.length = p.entries.length := by
  constructor
  · intro h
    constructor
    · rintro ⟨key, v⟩ hmem
      by_cases hkey : key = k
      · exact .inl hkey
      · exact .inr ((h key hkey).trans (mem_entries.mp hmem))
    · -- the names are the same, each once
      have hkeys : ∀ key, key ∈ q.dict.keys ↔ key ∈ p.dict.keys := by
        intro key
        by_cases hkey : key = k
        · rw [hkey]
          exact ⟨fun _ => hp, fun _ => hq⟩
        · rw [mem_keys, mem_keys, h key hkey]
      have hperm : q.dict.keys.Perm p.dict.keys :=
        (List.perm_ext_iff_of_nodup q.dict.nodup p.dict.nodup).mpr hkeys
      have hlength := hperm.length_eq
      rwa [← keys_entries, ← keys_entries, List.length_map, List.length_map] at hlength
  · rintro ⟨hitems, hlength⟩ key hkey
    cases hget : p.get key with
    | some v =>
      exact (hitems _ (mem_entries.mpr hget)).resolve_left hkey
    | none =>
      -- a name that the first lacks, the second lacks too
      by_contra hne
      obtain ⟨v, hv⟩ := Option.ne_none_iff_exists'.mp hne
      obtain ⟨v', hv'⟩ := mem_keys.mp (keys_of_length hlength (mem_keys.mpr ⟨v, hv⟩))
      rw [hget] at hv'
      cases hv'

/-- What is stored under a name was accepted. -/
theorem checked {value : JsonValue} (h : p.dict.items.lookup k = some value) :
    checkParameter (k, value) = .ok () := by
  obtain ⟨-, -, hitems⟩ := validateParameters_ok.mp p.accepted
  obtain ⟨before, after, hsplit, -⟩ := List.lookup_eq_some_iff.mp h
  exact hitems (k, value) (by rw [hsplit]; simp)

/-- A name may get another accepted value. -/
theorem accepted_set {value : JsonValue} (hk : k ∈ p.dict.keys)
    (hvalue : checkParameter (k, value) = .ok ()) :
    validateParameters (some (p.dict.set k value)) = .ok (p.dict.set k value) := by
  obtain ⟨-, hkeys, hitems⟩ := validateParameters_ok.mp p.accepted
  refine validateParameters_ok.mpr ⟨rfl, ?_, ?_⟩
  · rw [Dict.SameKeys, Dict.SameKeys, Dict.keys_set hk]
    exact hkeys
  · rintro ⟨key, value'⟩ hmem
    rcases Dict.mem_set.mp hmem with ⟨rfl, rfl⟩ | ⟨-, hold⟩
    · exact hvalue
    · exact hitems _ hold

/-- `p[k] = value`, for a name of `p` and an accepted value. -/
def set (p : Parameters) (k : String) (value : JsonValue) (hk : k ∈ p.dict.keys)
    (hvalue : checkParameter (k, value) = .ok ()) : Parameters :=
  ⟨p.dict.set k value, accepted_set hk hvalue⟩

/-- The number under a name is in its range. -/
theorem get_bounds {low high : ℚ} (h : p.get k = some v)
    (hlimits : limits.lookup k = some (low, high)) : low ≤ v ∧ v ≤ high := by
  obtain ⟨value, hlookup, hnumber⟩ := Option.bind_eq_some_iff.mp h
  obtain ⟨v', hnumber', low', high', hlimits', hcheck⟩ := checkParameter_ok (checked hlookup)
  obtain rfl := Option.some.inj (hnumber.symm.trans hnumber')
  obtain ⟨rfl, rfl⟩ := Prod.mk.inj (Option.some.inj (hlimits.symm.trans hlimits'))
  exact (checkNumber_ok.mp hcheck).1

end Parameters

/-! ### Records -/

variable {K : Type} [Field K] [LinearOrder K] [FloorRing K] [Libm K]

/-- The analysis of a record, as far as it is read: without a key there is nothing, and
under one there may be `null`. -/
structure StoredAnalysis (K : Type) where
  valid : Bool
  kIcr : Option K
  responseS : Option (Option K)
  knocks : Option (Option K)
deriving DecidableEq

/-- What is stored of the output of `analyze`. -/
def StoredAnalysis.ofAnalysis (a : Analysis K) : StoredAnalysis K where
  valid := a.valid
  kIcr := a.kIcr
  responseS := some a.responseS
  knocks := some (a.knocks.map fun n => (n : K))

/-- A stored trial; an absent key reads as what `get` falls back on. -/
structure RunRecord (K : Type) where
  recipe : String
  parameters : Parameters
  surface : Option String
  payload : Option String
  observation : Option String
  referenceM : Option K
  metrics : TrialMetrics K
  /-- Of the metrics. -/
  distance : Option K
  complete : Bool
  reason : Option String
  plateaus : List (Plateau K)
  analysis : Option (StoredAnalysis K)

namespace RunRecord

variable (r : RunRecord K)

/-- What `analyze` reads of the record. -/
def trial : TrialRun K :=
  { metrics := r.metrics, complete := r.complete, reason := r.reason, recipe := r.recipe
    plateaus := r.plateaus, surface := r.surface.getD "" }

/-- The analysis is the output of `analyze` on the record. -/
def Analyzed : Prop :=
  ∃ a, analyze r.trial = some a ∧ r.analysis = some (StoredAnalysis.ofAnalysis a)

theorem analyzed_iff : r.Analyzed ↔ r.analysis.isSome = true ∧
    r.analysis = (analyze r.trial).map StoredAnalysis.ofAnalysis := by
  constructor
  · rintro ⟨a, ha, hstored⟩
    rw [hstored, ha]
    exact ⟨rfl, rfl⟩
  · rintro ⟨hsome, hstored⟩
    rw [hstored, Option.isSome_map] at hsome
    obtain ⟨a, ha⟩ := Option.isSome_iff_exists.mp hsome
    rw [ha] at hstored
    exact ⟨a, ha, hstored⟩

instance : Decidable r.Analyzed := decidable_of_iff _ r.analyzed_iff.symm

/-- `r.get('analysis', {}).get('valid')`. -/
def valid : Bool := r.analysis.any fun a => a.valid

def isGood : Bool := r.observation == some "good"

def isGoodOrTune : Bool := r.observation == some "good" || r.observation == some "tune"

/-- `BY_ID[r['recipe']]`. -/
def recipe? : Option (SerialLink.Recipe K) := SerialLink.byId r.recipe

/-- The surface and the payload. -/
def context : Option String × Option String := (r.surface, r.payload)

/-- The key of the record's group. -/
def key : List (Lex (String × ℚ)) × Option String × Option String :=
  (r.parameters.sortedItems, r.surface, r.payload)

def kIcr : Option K := r.analysis.bind fun a => a.kIcr

end RunRecord

/-- `{r['recipe']: r for r in rows}`: the last record of each recipe. -/
def lastByRecipe (rows : List (RunRecord K)) : OrderedDict String (RunRecord K) :=
  .ofList (rows.map fun r => (r.recipe, r))

/-! ### The skid ratio -/

/-- The key of a group. -/
abbrev GroupKey := List (Lex (String × ℚ)) × Option String × Option String

/-- The groups, and the loop variable of the last one. -/
structure SkidGroups (K : Type) where
  key : Option GroupKey
  groups : OrderedDict GroupKey (OrderedDict String (RunRecord K))

/-- One pass of the grouping loop. -/
def groupRun (g : SkidGroups K) (r : RunRecord K) : Option (SkidGroups K) :=
  r.recipe?.map fun recipe =>
    if recipe.step ≠ 1 then g
    else
      { key := some r.key
        groups := g.groups.modify r.key .empty fun series => series.insert r.recipe r }

/-- What a group has in numbers. -/
structure SkidFigures (K : Type) where
  median : K
  spread : K
  /-- By the magnitude of the rate, which the source prints. -/
  bySpeed : List (K × K)
  byDirection : List (String × K)
  surface : Option String
  payload : Option String

structure SkidSummary (K : Type) where
  count : ℕ
  required : ℕ
  figures : Option (SkidFigures K)
  /-- The new `k_icr`. -/
  suggestion : Option K
  message : String

/-- The rate of a spin, and its ratio. -/
def spinRatio (r : RunRecord K) : Option (K × K) := do
  let recipe ← r.recipe?
  let stage ← recipe.stages.head?
  let ratio ← r.kIcr
  some (stage.wz, ratio)

/-- The medians of the ratios that share a key. -/
def mediansBy {κ : Type} [DecidableEq κ] (rows : List (κ × K)) : Option (List (κ × K)) :=
  let groups : OrderedDict κ (List K) :=
    rows.foldl (fun g row => g.modify row.1 [] fun ratios => ratios ++ [row.2]) .empty
  groups.items.mapM fun group => group.2.median.map fun median => (group.1, median)

/-- The summary of a group. -/
def summarizeSeries (key : GroupKey) (series : OrderedDict String (RunRecord K)) :
    Option (SkidSummary K) := do
  let values ← series.values.mapM RunRecord.kIcr
  let median ← values.median
  let spread ← values.relativeRange
  let rows ← series.values.mapM spinRatio
  let bySpeed ← mediansBy (rows.map fun row => (|row.1|, row.2))
  let byDirection ← mediansBy (rows.map fun row => (if 0 < row.1 then "CCW" else "CW", row.2))
  let stable := spread ≤ 0.15 ∧ series.items.length = 12
  some
    { count := series.items.length, required := 12
      figures := some
        { median, spread, bySpeed, byDirection, surface := key.2.1, payload := key.2.2 }
      suggestion := if stable then some (roundTo 3 median) else none
      message := if stable then
          "All 12 trials agree within a 15% total range. Compare the candidate."
        else "Collect all 12 matching trials; a total range above 15% needs investigation." }

/-- The summary without a spin. -/
def noSpins : SkidSummary K :=
  { count := 0, required := 12, figures := none, suggestion := none
    message := "Complete and confirm floor trials to fit skid compensation." }

/-- `summarize`. -/
def summarize (runs : List (RunRecord K)) : Option (SkidSummary K) := do
  let accepted := runs.filter fun r => r.valid && r.isGood
  let state ← accepted.foldlM groupRun ⟨none, .empty⟩
  if state.groups.items.isEmpty then some noSpins
  else
    -- the key of the last pass, not of the pass that filled the group
    let key ← state.key
    let series ← state.groups.get? key
    summarizeSeries key series

/-! ### The wheel radius -/

/-- The rows of a comprehension whose condition may raise. -/
def filterOption {α : Type} (condition : α → Option Bool) : List α → Option (List α)
  | [] => some []
  | a :: rows => do
    let keep ← condition a
    let rest ← filterOption condition rows
    some (if keep then a :: rest else rest)

structure RadiusSummary (K : Type) where
  /-- The new `radius`. -/
  suggestion : Option K
  message : String

/-- A reference trial with the given parameters. -/
def isReference (parameters : Parameters) (r : RunRecord K) : Option Bool :=
  r.recipe?.map fun recipe =>
    recipe.step = 3 && !recipe.verification && r.valid && r.isGood &&
      (r.referenceM.any fun reference => reference ≠ 0) && r.parameters.Same parameters &&
      0.05 < |r.distance.getD 0|

/-- The scale of the encoder in a reference trial. -/
def referenceRatio (r : RunRecord K) : Option K := do
  let reference ← r.referenceM
  let distance ← r.distance
  some (reference / |distance|)

/-- No radius is proposed. -/
def noRadius (message : String) : RadiusSummary K := { suggestion := none, message }

/-- The summary of the last reference trial of each recipe. -/
def summarizeReferences (parameters : Parameters) (series : OrderedDict String (RunRecord K)) :
    Option (RadiusSummary K) := do
  let ratios ← series.values.mapM referenceRatio
  let median ← ratios.median
  let scale ← parameters.get "radius"
  let radius := (scale : K) * median
  let range ← ratios.relativeRange
  some (if 0.1 < range ∨ ¬(0.02 ≤ radius ∧ radius ≤ 0.1) then
      noRadius ("Distance references disagree by >10% or imply unsupported geometry. " ++
        "Investigate slip and measurements.")
    else
      { suggestion := some (roundTo 4 radius)
        message := "Compare this radius from all four physical references. Repeat after " ++
          "applying; physical separation and encoder-only odometry stay independent of gyro." })

/-- The summary of the reference trials. -/
def summarizeRows (parameters : Parameters) (rows : List (RunRecord K)) :
    Option (RadiusSummary K) :=
  match rows.getLast? with
  | none =>
    some (noRadius "Enter independently measured floor travel for each reference trial.")
  | some last =>
    let series := lastByRecipe (rows.filter fun r => r.context = last.context)
    if series.items.length < 4 then
      some (noRadius ("Complete two forward and two backward physical references with " ++
        "matching settings, surface and payload."))
    else summarizeReferences parameters series

/-- `geometry_summary`. -/
def geometrySummary (runs : List (RunRecord K)) (parameters : Parameters) :
    Option (RadiusSummary K) :=
  (filterOption (isReference parameters) runs).bind (summarizeRows parameters)

/-! ### What the parts do -/

theorem mapM_eq_some {α β : Type} {f : α → Option β} {l : List α} {l' : List β} :
    l.mapM f = some l' ↔ l.map f = l'.map some := by
  induction l generalizing l' with
  | nil =>
    rw [List.mapM_nil]
    constructor
    · intro h
      obtain rfl := Option.some.inj h
      rfl
    · intro h
      rw [List.map_eq_nil_iff.mp h.symm]
      rfl
  | cons a l ih =>
    rw [List.mapM_cons, List.map_cons]
    constructor
    · intro h
      obtain ⟨b, hb, h⟩ := Option.bind_eq_some_iff.mp h
      obtain ⟨rest, hrest, h⟩ := Option.bind_eq_some_iff.mp h
      obtain rfl := Option.some.inj h
      rw [hb, ih.mp hrest]
      rfl
    · intro h
      cases l' with
      | nil => cases h
      | cons b l' =>
        obtain ⟨hb, hrest⟩ := List.cons.inj h
        rw [hb, ih.mpr hrest]
        rfl

/-- The rows of a comprehension that did not raise. -/
theorem filterOption_eq_some {α : Type} {condition : α → Option Bool} {l rows : List α}
    (h : filterOption condition l = some rows) :
    rows = l.filter fun a => condition a = some true := by
  induction l generalizing rows with
  | nil => exact (Option.some.inj h).symm
  | cons a l ih =>
    obtain ⟨keep, hkeep, h⟩ := Option.bind_eq_some_iff.mp h
    obtain ⟨rest, hrest, h⟩ := Option.bind_eq_some_iff.mp h
    obtain rfl := Option.some.inj h
    have hrows := ih hrest
    cases keep with
    | true =>
      rw [if_pos rfl, List.filter_cons_of_pos (by simpa using hkeep), hrows]
    | false =>
      rw [if_neg (by decide), List.filter_cons_of_neg (by simp [hkeep]), hrows]

section Last

variable {rows : List (RunRecord K)} {r : RunRecord K}

omit [Field K] [LinearOrder K] [FloorRing K] [Libm K]

/-- The record is the last one of its recipe. -/
def LastOfRecipe (rows : List (RunRecord K)) (r : RunRecord K) : Prop :=
  ∃ before after, rows = before ++ r :: after ∧ ∀ r' ∈ after, r'.recipe ≠ r.recipe

theorem LastOfRecipe.mem (h : LastOfRecipe rows r) : r ∈ rows := by
  obtain ⟨before, after, hrows, -⟩ := h
  rw [hrows]
  simp

theorem mem_items_lastByRecipe {id : String} :
    (id, r) ∈ (lastByRecipe rows).items ↔ id = r.recipe ∧ LastOfRecipe rows r := by
  rw [lastByRecipe, OrderedDict.mem_ofList, LastOfRecipe]
  constructor
  · rintro ⟨before, after, hsplit, hlast⟩
    obtain ⟨rows₁, rows₂, rfl, rfl, htail⟩ := List.map_eq_append_iff.mp hsplit
    obtain ⟨r', rows₃, rfl, hpair, rfl⟩ := List.map_eq_cons_iff.mp htail
    obtain ⟨rfl, rfl⟩ := Prod.mk.inj hpair
    refine ⟨rfl, rows₁, rows₃, rfl, ?_⟩
    intro r'' hr'' heq
    refine hlast ?_
    rw [List.map_map]
    exact List.mem_map.mpr ⟨r'', hr'', heq⟩
  · rintro ⟨rfl, before, after, rfl, hlast⟩
    refine ⟨before.map fun r => (r.recipe, r), after.map fun r => (r.recipe, r), by simp, ?_⟩
    rw [List.map_map]
    intro hmem
    obtain ⟨r', hr', heq⟩ := List.mem_map.mp hmem
    exact hlast r' hr' heq

theorem mem_lastByRecipe : r ∈ (lastByRecipe rows).values ↔ LastOfRecipe rows r := by
  rw [OrderedDict.values, List.mem_map]
  constructor
  · rintro ⟨⟨id, r'⟩, hmem, rfl⟩
    exact (mem_items_lastByRecipe.mp hmem).2
  · intro h
    exact ⟨(r.recipe, r), mem_items_lastByRecipe.mpr ⟨rfl, h⟩, rfl⟩

/-- As many records as there are recipes are one of each. -/
theorem recipes_lastByRecipe {ids : List String} (hrows : ∀ r ∈ rows, r.recipe ∈ ids)
    (hlength : ids.length ≤ (lastByRecipe rows).items.length) :
    ((lastByRecipe rows).values.map fun r => r.recipe).Perm ids := by
  have hkeys : (lastByRecipe rows).values.map (fun r => r.recipe) =
      (lastByRecipe rows).items.map Prod.fst := by
    rw [OrderedDict.values, List.map_map]
    refine List.map_congr_left ?_
    rintro ⟨id, r⟩ hmem
    exact (mem_items_lastByRecipe.mp hmem).1.symm
  have hsubset : (lastByRecipe rows).items.map Prod.fst ⊆ ids := by
    intro id hid
    obtain ⟨⟨id', r⟩, hmem, rfl⟩ := List.mem_map.mp hid
    obtain ⟨rfl, hlast⟩ := mem_items_lastByRecipe.mp hmem
    exact hrows r hlast.mem
  rw [hkeys]
  refine (List.subperm_of_subset (lastByRecipe rows).nodup hsubset).perm_of_length_le ?_
  rwa [List.length_map]

end Last

/-- The recipe of an identifier is one of its step. -/
theorem mem_subtests {id : String} {recipe : SerialLink.Recipe K}
    (h : SerialLink.byId id = some recipe) :
    id ∈ SerialLink.subtests K recipe.step recipe.verification := by
  rw [SerialLink.byId] at h
  have hid : recipe.id = id := by simpa using List.find?_some h
  rw [SerialLink.subtests, List.mem_filterMap]
  refine ⟨recipe, List.mem_of_find?_eq_some h, ?_⟩
  rw [if_pos ⟨rfl, rfl⟩, hid]

/-! ### Sample records -/

/-- The parameters of the records below. -/
def sampleParameters : Parameters where
  dict :=
    { items :=
        [("ax", .float 0.7), ("jx", .int 2), ("aw", .int 3), ("jw", .int 10),
         ("k_icr", .float 1.5), ("radius", .float 0.0363), ("separation", .float 0.2899),
         ("ramp", .int 1), ("rpm_max", .int 200), ("vx_max", .float 0.4), ("wz_max", .float 0.8),
         ("lpf", .int 20), ("kp", .float 1), ("ki", .float 1), ("correction_max", .float 0.5),
         ("deadband", .float 0.025), ("correction_accel", .float 1.005),
         ("correction_jerk", .float 10.005), ("yaw_feedback", .int 0)]
      nodup := by decide }
  accepted := validateParameters_ok.mpr ⟨rfl, .inl (by decide +kernel), by decide +kernel⟩

/-- The metrics of a trial whose encoder turns half as much again as its gyro. -/
def sampleMetrics (gyro : ℚ) : TrialMetrics ℚ where
  samples := some 1000
  gaps := some 0
  knocks := some 2
  gyroYaw := none
  encoderYaw := none
  steadyGyro := some gyro
  steadyEncoder := some (1.5 * gyro)
  steadyS := some 4
  accelPeak := none
  trackingRms := none
  responseS := some 0.6
  stopDistance := some 0.04
  stopS := some 0.5

/-- The confirmed record of a trial, analysed. -/
def sampleRecord (recipe surface : String) (m : TrialMetrics ℚ) (p : Parameters) :
    RunRecord ℚ :=
  let r : RunRecord ℚ :=
    { recipe, parameters := p, surface := some surface, payload := some "normal"
      observation := some "good", referenceM := some 0.306, metrics := m
      distance := some 0.3, complete := true, reason := some "completed", plateaus := []
      analysis := none }
  { r with analysis := (analyze r.trial).map StoredAnalysis.ofAnalysis }

end CalibrationServer
