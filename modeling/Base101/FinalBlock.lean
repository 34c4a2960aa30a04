/-
The final block of a list, and weighted means over it.

The final block is the longest suffix of good elements, each linked to the next.  A
filter that takes over the first value and then moves by a gain toward each further one
is a weighted mean of them.

* `finalBlock_concat_bad`, `finalBlock_concat_new`, `finalBlock_concat_linked` — what one more
  element makes of the final block;
* `FinalBlock.unique` — there is one only;
* `weightedSum_weights` — one step of the filter, on its weights;
* `WeightedMean.abs_le` — a weighted mean is no larger than the largest value.
-/
import Mathlib

/-! ### The final block -/

section Block

variable {α : Type*} {Good : α → Prop} {Linked : α → α → Prop} {history block : List α}

/-- The longest suffix of good elements, each linked to the next. -/
structure FinalBlock (Good : α → Prop) (Linked : α → α → Prop) (history block : List α) :
    Prop where
  suffix : block <:+ history
  good : ∀ a ∈ block, Good a
  chain : block.IsChain Linked
  longest : ∀ block', block' <:+ history → (∀ a ∈ block', Good a) → block'.IsChain Linked →
    block'.length ≤ block.length

theorem FinalBlock.unique {block' : List α} (h : FinalBlock Good Linked history block)
    (h' : FinalBlock Good Linked history block') : block = block' := by
  have hlength : block.length = block'.length :=
    le_antisymm (h'.longest block h.suffix h.good h.chain)
      (h.longest block' h'.suffix h'.good h'.chain)
  exact (List.suffix_of_suffix_length_le h.suffix h'.suffix hlength.le).eq_of_length hlength

/-- The last element of a block that is not empty is the last one of all. -/
theorem FinalBlock.getLast? (h : FinalBlock Good Linked history block) (hne : block ≠ []) :
    block.getLast? = history.getLast? := by
  obtain ⟨earlier, rfl⟩ := h.suffix
  rw [List.getLast?_append_of_ne_nil _ hne]

/-- A good last element is the last one of the block. -/
theorem FinalBlock.getLast?_of_good {last : α} (h : FinalBlock Good Linked history block)
    (hlast : history.getLast? = some last) (hgood : Good last) :
    block.getLast? = some last := by
  rw [h.getLast? ?_, hlast]
  rintro rfl
  -- it is a block by itself
  have hlong := h.longest [last] (List.singleton_suffix_iff_getLast?_eq_some.mpr hlast)
    (by simpa using hgood) (List.isChain_singleton last)
  simp at hlong

/-- A bad element ends the block. -/
theorem finalBlock_concat_bad {a : α} (ha : ¬Good a) :
    FinalBlock Good Linked (history ++ [a]) [] where
  suffix := List.nil_suffix
  good := by simp
  chain := List.isChain_nil
  longest := by
    intro block' hsuffix hgood _
    rcases List.suffix_concat_iff.mp hsuffix with rfl | ⟨t, rfl, -⟩
    · rfl
    · exact absurd (hgood a (by simp)) ha

/-- A good one that is not linked to the last starts a new one. -/
theorem finalBlock_concat_new {a : α} (ha : Good a)
    (hlink : ∀ last, history.getLast? = some last → Good last → ¬Linked last a) :
    FinalBlock Good Linked (history ++ [a]) [a] where
  suffix := List.suffix_append _ _
  good := by simpa using ha
  chain := List.isChain_singleton a
  longest := by
    intro block' hsuffix hgood hchain
    rcases List.suffix_concat_iff.mp hsuffix with rfl | ⟨t, rfl, ht⟩
    · exact Nat.zero_le _
    · rcases List.eq_nil_or_concat t with rfl | ⟨t, last, rfl⟩
      · rfl
      · -- the element before it would be linked to it
        rw [List.concat_eq_append] at ht hgood hchain
        have hlast : history.getLast? = some last := by
          obtain ⟨earlier, rfl⟩ := ht
          rw [← List.append_assoc, List.getLast?_concat]
        have hlinked : Linked last a :=
          (List.isChain_append.mp hchain).2.2 last (by simp) a (by simp)
        exact absurd hlinked (hlink last hlast (hgood last (by simp)))

/-- A good one that is linked to the last extends the block. -/
theorem finalBlock_concat_linked {a last : α} (h : FinalBlock Good Linked history block)
    (hlast : block.getLast? = some last) (ha : Good a) (hlink : Linked last a) :
    FinalBlock Good Linked (history ++ [a]) (block ++ [a]) where
  suffix := by
    obtain ⟨earlier, rfl⟩ := h.suffix
    rw [List.append_assoc]
    exact List.suffix_append _ _
  good := by
    intro b hb
    rcases List.mem_append.mp hb with hb | hb
    · exact h.good b hb
    · rw [List.mem_singleton.mp hb]
      exact ha
  chain := by
    refine List.isChain_append.mpr ⟨h.chain, List.isChain_singleton a, ?_⟩
    intro x hx y hy
    rw [hlast] at hx
    obtain rfl := Option.some.inj hx
    obtain rfl := Option.some.inj hy
    exact hlink
  longest := by
    intro block' hsuffix hgood hchain
    rcases List.suffix_concat_iff.mp hsuffix with rfl | ⟨t, rfl, ht⟩
    · exact Nat.zero_le _
    · have hshort := h.longest t ht (fun b hb => hgood b (List.mem_append_left _ hb))
        (List.isChain_append.mp hchain).1
      rw [List.length_append, List.length_append]
      exact Nat.add_le_add_right hshort 1

end Block

/-! ### Weighted means -/

section Weights

variable {K : Type*} [Field K] [LinearOrder K] [IsStrictOrderedRing K]

/-- The weights of the first value and of those after it: each gain shrinks the weights
before it. -/
def weights (gains : List K) : List K :=
  gains.foldl (fun ws gain => ws.map (· * (1 - gain)) ++ [gain]) [1]

/-- The sum of the values, each with its weight. -/
def weightedSum (ws values : List K) : K := (List.zipWith (· * ·) ws values).sum

omit [LinearOrder K] [IsStrictOrderedRing K] in
theorem weights_concat (gains : List K) (gain : K) :
    weights (gains ++ [gain]) = (weights gains).map (· * (1 - gain)) ++ [gain] := by
  rw [weights, List.foldl_append]
  rfl

omit [LinearOrder K] [IsStrictOrderedRing K] in
theorem length_weights (gains : List K) : (weights gains).length = gains.length + 1 := by
  induction gains using List.reverseRecOn with
  | nil => rfl
  | append_singleton gains gain ih =>
    rw [weights_concat, List.length_append, List.length_map, ih, List.length_append]
    rfl

omit [LinearOrder K] [IsStrictOrderedRing K] in
/-- The weights of a mean. -/
theorem sum_weights (gains : List K) : (weights gains).sum = 1 := by
  induction gains using List.reverseRecOn with
  | nil => exact List.sum_singleton
  | append_singleton gains gain ih =>
    rw [weights_concat, List.sum_append, List.sum_singleton, List.sum_map_mul_right, List.map_id',
      ih]
    ring

theorem weights_nonneg {gains : List K} (h : ∀ gain ∈ gains, 0 ≤ gain ∧ gain ≤ 1) :
    ∀ w ∈ weights gains, 0 ≤ w := by
  induction gains using List.reverseRecOn with
  | nil =>
    intro w hw
    rw [List.mem_singleton.mp hw]
    exact zero_le_one
  | append_singleton gains gain ih =>
    have hgain := h gain (by simp)
    intro w hw
    rw [weights_concat] at hw
    rcases List.mem_append.mp hw with hw | hw
    · obtain ⟨w', hw', rfl⟩ := List.mem_map.mp hw
      have hw' := ih (fun gain hgain => h gain (List.mem_append_left _ hgain)) w' hw'
      exact mul_nonneg hw' (by linarith)
    · rw [List.mem_singleton.mp hw]
      exact hgain.1

omit [LinearOrder K] [IsStrictOrderedRing K] in
theorem weightedSum_scale (ws values : List K) (c : K) :
    weightedSum (ws.map (· * c)) values = weightedSum ws values * c := by
  induction ws generalizing values with
  | nil => exact (zero_mul c).symm
  | cons w ws ih =>
    cases values with
    | nil => exact (zero_mul c).symm
    | cons v values =>
      have ih := ih values
      rw [weightedSum] at ih ⊢
      rw [List.map_cons, List.zipWith_cons_cons, List.sum_cons, ih, weightedSum, weightedSum,
        List.zipWith_cons_cons, List.sum_cons]
      ring

omit [LinearOrder K] [IsStrictOrderedRing K] in
/-- One step of the filter, on its weights. -/
theorem weightedSum_weights {gains values : List K} (hlength : values.length = gains.length + 1)
    (gain value : K) :
    weightedSum (weights (gains ++ [gain])) (values ++ [value]) =
      weightedSum (weights gains) values +
        gain * (value - weightedSum (weights gains) values) := by
  rw [weights_concat, weightedSum, List.zipWith_append, List.sum_append]
  · have hscale := weightedSum_scale (weights gains) values (1 - gain)
    rw [weightedSum] at hscale
    rw [hscale]
    show weightedSum (weights gains) values * (1 - gain) + (gain * value + 0) = _
    ring
  · rw [List.length_map, length_weights, hlength]

/-- A weighted sum of values within a bound. -/
theorem abs_weightedSum_le_sum {ws values : List K} {bound : K} (hws : ∀ w ∈ ws, 0 ≤ w)
    (hvalues : ∀ v ∈ values, |v| ≤ bound) (hlength : ws.length ≤ values.length) :
    |weightedSum ws values| ≤ ws.sum * bound := by
  induction ws generalizing values with
  | nil => simp [weightedSum]
  | cons w ws ih =>
    cases values with
    | nil => simp at hlength
    | cons v values =>
      have hw := hws w List.mem_cons_self
      have hv := hvalues v List.mem_cons_self
      have htail : |weightedSum ws values| ≤ ws.sum * bound :=
        ih (fun w hw => hws w (List.mem_cons_of_mem _ hw))
        (fun v hv => hvalues v (List.mem_cons_of_mem _ hv)) (by simpa using hlength)
      calc |weightedSum (w :: ws) (v :: values)|
          = |w * v + weightedSum ws values| := rfl
        _ ≤ |w * v| + |weightedSum ws values| := abs_add_le _ _
        _ ≤ w * bound + ws.sum * bound := by
            rw [abs_mul, abs_of_nonneg hw]
            exact add_le_add (mul_le_mul_of_nonneg_left hv hw) htail
        _ = (w :: ws).sum * bound := by
            rw [List.sum_cons]
            ring

/-- The mean of the values with the weights. -/
structure WeightedMean (ws values : List K) (mean : K) : Prop where
  length : ws.length = values.length
  nonneg : ∀ w ∈ ws, 0 ≤ w
  total : ws.sum = 1
  eq : mean = weightedSum ws values

/-- A weighted mean is no larger than the largest value. -/
theorem WeightedMean.abs_le {ws values : List K} {mean : K} (h : WeightedMean ws values mean)
    (hne : values ≠ []) : ∃ v ∈ values, |mean| ≤ |v| := by
  obtain ⟨v, hv, hmax⟩ := Finset.exists_max_image values.toFinset abs
    ((List.toFinset_nonempty_iff values).mpr hne)
  refine ⟨v, List.mem_toFinset.mp hv, ?_⟩
  have hbound : ∀ u ∈ values, |u| ≤ |v| := fun u hu => hmax u (List.mem_toFinset.mpr hu)
  have hle := abs_weightedSum_le_sum h.nonneg hbound h.length.le
  rwa [h.total, one_mul, ← h.eq] at hle

end Weights
