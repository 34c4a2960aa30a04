/-
The account of trials in the calibration server.

What is left of the server without motion, time and the port: the active trial, the
active sequence and the results.

* `Ledger.Step` — a trial starts or finishes, a sequence begins or is given up;
* `Ledger.Ok` — every trial has one result, and a sequence has those of its recipes, in
  order, as far as it went;
* `Ledger.Steps.ok` — any number of steps keeps it.
-/
import Base101.CalibrationTrials

namespace SerialLink

/-- What a trial is known by. -/
structure Entry where
  id : ℕ
  recipe : String
  sequence : Option (ℕ × ℕ)

/-- What a sequence is known by. -/
structure Batch where
  id : ℕ
  index : ℕ
  recipes : List String

structure Ledger where
  trial : Option Entry
  sequence : Option Batch
  results : List TrialResult
  persist : List TrialResult
  lastSequence : Option LastSequence
  ended : List (Batch × LastSequence)
  nextTrial : ℕ
  nextSequence : ℕ

namespace Ledger

/-! ### Operations -/

/-- The next trial, of the active sequence if there is one. -/
def start (l : Ledger) (recipe : String) : Ledger :=
  { l with
    trial := some
      { id := l.nextTrial, recipe, sequence := l.sequence.map fun b => (b.id, b.index) }
    nextTrial := l.nextTrial + 1 }

def beginSequence (l : Ledger) (recipes : List String) : Ledger :=
  { l with
    sequence := some { id := l.nextSequence, index := 0, recipes }
    nextSequence := l.nextSequence + 1 }

def endSequence (l : Ledger) (reason : String) (complete : Bool) : Ledger :=
  match l.sequence with
  | none => l
  | some b =>
    let result := l.results.getLast?
    let last : LastSequence :=
      { id := b.id, index := b.index, reason, complete, resultId := result.map (·.id)
        lastRecipe := result.map (·.recipe) }
    { l with sequence := none, lastSequence := some last, ended := (b, last) :: l.ended }

def advance (l : Ledger) (reason : String) (complete : Bool) : Ledger :=
  match l.sequence with
  | none => l
  | some b =>
    let next := { l with sequence := some { b with index := b.index + 1 } }
    if !complete || b.recipes.length ≤ b.index + 1 then next.endSequence reason complete
    else next

/-- The trial's result is added. -/
def add (l : Ledger) (T : Entry) (reason : String) (complete : Bool) : Ledger :=
  let result : TrialResult :=
    { id := T.id, recipe := T.recipe, sequence := T.sequence, complete, reason }
  { l with
    trial := none
    results := lastResults (l.results ++ [result])
    persist := l.persist ++ [result] }

/-- What one part of a section under the lock does; a trial is complete only where rest
was `measured`. -/
inductive Step (measured : Prop) : Ledger → Ledger → Prop
  | start {l : Ledger} {recipe : String} (htrial : l.trial = none)
      (hrecipe : ∀ b ∈ l.sequence, b.recipes[b.index]? = some recipe) :
      Step measured l (l.start recipe)
  | beginSequence {l : Ledger} {recipes : List String} (htrial : l.trial = none)
      (hsequence : l.sequence = none) (hne : recipes ≠ [])
      (hlength : recipes.length ≤ resultsKept) :
      Step measured l (l.beginSequence recipes)
  | finish {l : Ledger} {T : Entry} {reason : String} {complete : Bool}
      (htrial : l.trial = some T) (hmeasured : complete = true → measured) :
      Step measured l ((l.add T reason complete).advance reason complete)
  | endSequence {l : Ledger} {reason : String} (htrial : l.trial = none) :
      Step measured l (l.endSequence reason false)

def Steps (measured : Prop) : Ledger → Ledger → Prop := Relation.ReflTransGen (Step measured)

/-! ### The invariant -/

/-- The results with the sequence's id. -/
def ofSequence (id : ℕ) (results : List TrialResult) : List TrialResult :=
  results.filter fun r => r.sequence.map (·.1) = some id

/-- The sequence has the results of its first recipes, all complete, and the active
trial is of the next. -/
structure Running (stored persist : List TrialResult) (trial : Option Entry) (b : Batch) :
    Prop where
  index : b.index < b.recipes.length
  length : b.recipes.length ≤ resultsKept
  results : ∃ earlier mine, persist = earlier ++ mine ∧ ofSequence b.id (stored ++ earlier) = [] ∧
    ofSequence b.id mine = mine ∧ mine.map (·.recipe) = b.recipes.take b.index ∧
    ∀ r ∈ mine, r.complete = true
  trial : ∀ T ∈ trial, T.sequence = some (b.id, b.index) ∧ b.recipes[b.index]? = some T.recipe

/-- A sequence has ended with the results of its first recipes, all complete but
possibly the last. -/
structure Ended (persist : List TrialResult) (b : Batch) (last : LastSequence) : Prop where
  id : last.id = b.id
  recipes : (ofSequence b.id persist).map (·.recipe) =
    b.recipes.take (ofSequence b.id persist).length
  complete : ∀ r ∈ (ofSequence b.id persist).dropLast, r.complete = true
  all : last.complete = true ↔ (ofSequence b.id persist).length = b.recipes.length ∧
    ∀ r ∈ ofSequence b.id persist, r.complete = true

/-- Every trial started since `first` has one result, or is active. -/
structure Ok (stored : List TrialResult) (first : ℕ) (l : Ledger) : Prop where
  ids : l.persist.map (·.id) ++ l.trial.toList.map (·.id) =
    List.range' first (l.nextTrial - first)
  first : first ≤ l.nextTrial
  results : l.results = lastResults (stored ++ l.persist)
  known : ∀ id, l.nextSequence ≤ id → ofSequence id (stored ++ l.persist) = []
  running : ∀ b ∈ l.sequence, b.id < l.nextSequence ∧ Running stored l.persist l.trial b
  single : l.sequence = none → ∀ T ∈ l.trial, T.sequence = none
  ended : ∀ p ∈ l.ended, p.1.id < l.nextSequence ∧ (∀ b ∈ l.sequence, p.1.id ≠ b.id) ∧
    Ended l.persist p.1 p.2
  last : l.lastSequence = l.ended.head?.map (·.2)

theorem ofSequence_append (id : ℕ) (l l' : List TrialResult) :
    ofSequence id (l ++ l') = ofSequence id l ++ ofSequence id l' :=
  List.filter_append ..

theorem ofSequence_one {id : ℕ} {r : TrialResult} (h : r.sequence.map (·.1) ≠ some id) :
    ofSequence id [r] = [] := by
  rw [ofSequence, List.filter_cons_of_neg (by simpa using h), List.filter_nil]

theorem ofSequence_own {id : ℕ} {r : TrialResult} (h : r.sequence.map (·.1) = some id) :
    ofSequence id [r] = [r] := by
  rw [ofSequence, List.filter_cons_of_pos (by simpa using h), List.filter_nil]

/-- What was dropped before stays dropped. -/
theorem lastResults_append (results : List TrialResult) (r : TrialResult) :
    lastResults (lastResults results ++ [r]) = lastResults (results ++ [r]) := by
  have happend : results.drop (results.length - resultsKept) ++ [r] =
      (results ++ [r]).drop (results.length - resultsKept) :=
    (List.drop_append_of_le_length (Nat.sub_le _ _)).symm
  have hdropped : results.length - resultsKept +
      (((results ++ [r]).drop (results.length - resultsKept)).length - resultsKept) =
      (results ++ [r]).length - resultsKept := by
    simp only [List.length_drop, List.length_append, List.length_cons, List.length_nil]
    omega
  rw [lastResults, lastResults, lastResults, happend, List.drop_drop, hdropped]

/-- The results of the active sequence are its results so far. -/
theorem Running.ofSequence_persist {stored persist : List TrialResult} {trial : Option Entry}
    {b : Batch} (h : Running stored persist trial b) :
    (ofSequence b.id persist).map (·.recipe) = b.recipes.take b.index ∧
      (ofSequence b.id persist).length = b.index ∧
      ∀ r ∈ ofSequence b.id persist, r.complete = true := by
  obtain ⟨earlier, mine, rfl, hearlier, hmine, hrecipes, hcomplete⟩ := h.results
  have hnone : ofSequence b.id earlier = [] := by
    rw [ofSequence_append] at hearlier
    exact (List.append_eq_nil_iff.mp hearlier).2
  rw [ofSequence_append, hnone, hmine, List.nil_append]
  refine ⟨hrecipes, ?_, hcomplete⟩
  have hlength := congrArg List.length hrecipes
  rw [List.length_map, List.length_take] at hlength
  have hindex := h.index
  omega

/-- They are among those the server keeps. -/
theorem Running.ofSequence_results {stored persist : List TrialResult} {trial : Option Entry}
    {b : Batch} (h : Running stored persist trial b) :
    ofSequence b.id (lastResults (stored ++ persist)) = ofSequence b.id persist := by
  have hlength := h.ofSequence_persist.2.1
  obtain ⟨earlier, mine, rfl, hearlier, hmine, -, -⟩ := h.results
  have hnone : ofSequence b.id earlier = [] := by
    rw [ofSequence_append] at hearlier
    exact (List.append_eq_nil_iff.mp hearlier).2
  rw [ofSequence_append, hnone, hmine, List.nil_append] at hlength ⊢
  have hindex := h.index
  have hcount := h.length
  have hdrop : lastResults (stored ++ (earlier ++ mine)) =
      (stored ++ earlier).drop ((stored ++ (earlier ++ mine)).length - resultsKept) ++ mine := by
    rw [lastResults, ← List.append_assoc, List.drop_append_of_le_length]
    simp only [List.length_append]
    omega
  rw [hdrop, ofSequence_append, hmine]
  have hdropped : ofSequence b.id
      ((stored ++ earlier).drop ((stored ++ (earlier ++ mine)).length - resultsKept)) = [] := by
    rw [ofSequence, List.filter_eq_nil_iff] at hearlier ⊢
    exact fun r hr => hearlier r (List.mem_of_mem_drop hr)
  rw [hdropped, List.nil_append]

/-! ### The steps -/

section Steps

variable {stored : List TrialResult} {first : ℕ} {measured : Prop} {l l' : Ledger}

theorem Ok.start (h : Ok stored first l) {recipe : String} (htrial : l.trial = none)
    (hrecipe : ∀ b ∈ l.sequence, b.recipes[b.index]? = some recipe) :
    Ok stored first (l.start recipe) where
  ids := by
    have hids := h.ids
    have hfirst := h.first
    rw [htrial, Option.toList_none, List.map_nil, List.append_nil] at hids
    have hnext : l.nextTrial + 1 - first = l.nextTrial - first + 1 := by omega
    have hlast : first + (l.nextTrial - first) = l.nextTrial := by omega
    show l.persist.map (·.id) ++ [l.nextTrial] = List.range' first (l.nextTrial + 1 - first)
    rw [hids, hnext, List.range'_1_concat, hlast]
  first := Nat.le_succ_of_le h.first
  results := h.results
  known := h.known
  running := by
    intro b hb
    obtain ⟨hid, hrunning⟩ := h.running b hb
    refine ⟨hid, { hrunning with trial := ?_ }⟩
    intro T hT
    obtain rfl := Option.some.inj hT
    refine ⟨?_, hrecipe b hb⟩
    have hb : l.sequence = some b := hb
    show l.sequence.map _ = _
    rw [hb]
    rfl
  single := by
    intro hsequence T hT
    obtain rfl := Option.some.inj hT
    have hnone : l.sequence = none := hsequence
    show l.sequence.map _ = none
    rw [hnone]
    rfl
  ended := h.ended
  last := h.last

theorem Ok.beginSequence (h : Ok stored first l) {recipes : List String}
    (htrial : l.trial = none) (hne : recipes ≠ []) (hlength : recipes.length ≤ resultsKept) :
    Ok stored first (l.beginSequence recipes) where
  ids := h.ids
  first := h.first
  results := h.results
  known := fun id hid => h.known id (Nat.le_of_succ_le hid)
  running := by
    intro b hb
    obtain rfl := Option.some.inj hb
    refine ⟨Nat.lt_succ_self _, List.length_pos_iff.mpr hne, hlength, ?_, ?_⟩
    · refine ⟨l.persist, [], (List.append_nil _).symm, h.known _ le_rfl, rfl, rfl, ?_⟩
      intro r hr
      cases hr
    · intro T hT
      have hnone : l.trial = some T := hT
      rw [htrial] at hnone
      cases hnone
  single := fun hsequence => by cases hsequence
  ended := by
    intro p hp
    obtain ⟨hid, -, hended⟩ := h.ended p hp
    refine ⟨Nat.lt_succ_of_lt hid, ?_, hended⟩
    intro b hb
    obtain rfl := Option.some.inj hb
    exact Nat.ne_of_lt hid
  last := h.last

/-- A pause ends: fewer results than recipes. -/
theorem Running.ended {persist : List TrialResult} {b : Batch} {last : LastSequence}
    (h : Running stored persist none b) (hid : last.id = b.id) (hlast : last.complete = false) :
    Ended persist b last := by
  obtain ⟨hrecipes, hlength, hcomplete⟩ := h.ofSequence_persist
  have hindex := h.index
  refine ⟨hid, by rw [hrecipes, hlength], fun r hr => hcomplete r (List.mem_of_mem_dropLast hr), ?_⟩
  constructor
  · intro htrue
    rw [hlast] at htrue
    cases htrue
  · rintro ⟨hall, -⟩
    omega

theorem Ok.endSequence (h : Ok stored first l) {reason : String} (htrial : l.trial = none) :
    Ok stored first (l.endSequence reason false) := by
  unfold Ledger.endSequence
  split
  · exact h
  · next b hb =>
    obtain ⟨hid, hrunning⟩ := h.running b hb
    rw [htrial] at hrunning
    refine
      { ids := h.ids, first := h.first, results := h.results, known := h.known
        running := by intro b' hb'; cases hb'
        single := ?_, ended := ?_, last := rfl }
    · intro _ T hT
      have hnone : l.trial = some T := hT
      rw [htrial] at hnone
      cases hnone
    · intro p hp
      rcases List.mem_cons.mp hp with rfl | hp
      · exact ⟨hid, (by intro b' hb'; cases hb'), hrunning.ended rfl rfl⟩
      · obtain ⟨hid', -, hended⟩ := h.ended p hp
        exact ⟨hid', (by intro b' hb'; cases hb'), hended⟩

/-- The result of another sequence, or of none. -/
theorem Ended.add {persist : List TrialResult} {b : Batch} {last : LastSequence}
    {r : TrialResult} (h : Ended persist b last) (hr : r.sequence.map (·.1) ≠ some b.id) :
    Ended (persist ++ [r]) b last := by
  have hsame : ofSequence b.id (persist ++ [r]) = ofSequence b.id persist := by
    rw [ofSequence_append, ofSequence_one hr, List.append_nil]
  obtain ⟨hid, hrecipes, hcomplete, hall⟩ := h
  refine ⟨hid, ?_, ?_, ?_⟩
  · rw [hsame]
    exact hrecipes
  · rw [hsame]
    exact hcomplete
  · rw [hsame]
    exact hall

/-- The result of the active trial is the next of its sequence. -/
theorem Running.add {persist : List TrialResult} {b : Batch} {T : Entry} {r : TrialResult}
    (h : Running stored persist (some T) b) (hsequence : r.sequence = T.sequence)
    (hrecipe : r.recipe = T.recipe) :
    ∃ earlier mine, persist ++ [r] = earlier ++ (mine ++ [r]) ∧
      ofSequence b.id (stored ++ earlier) = [] ∧
      ofSequence b.id (mine ++ [r]) = mine ++ [r] ∧
      (mine ++ [r]).map (·.recipe) = b.recipes.take (b.index + 1) ∧
      ∀ r ∈ mine, r.complete = true := by
  obtain ⟨earlier, mine, rfl, hearlier, hmine, hrecipes, hcomplete⟩ := h.results
  obtain ⟨htrial, hnext⟩ := h.trial T rfl
  refine ⟨earlier, mine, List.append_assoc .., hearlier, ?_, ?_, hcomplete⟩
  · rw [ofSequence_append, hmine, ofSequence_own (by rw [hsequence, htrial]; rfl)]
  · rw [List.map_append, hrecipes, List.take_add_one, hnext, ← hrecipe]
    rfl

/-- The sequence ends with the result of its last trial, or of one that was broken off. -/
theorem Running.ended_add {persist : List TrialResult} {b : Batch} {T : Entry}
    {r : TrialResult} {last : LastSequence} (h : Running stored persist (some T) b)
    (hsequence : r.sequence = T.sequence) (hrecipe : r.recipe = T.recipe)
    (hid : last.id = b.id) (hlast : last.complete = r.complete)
    (hover : r.complete = true → b.recipes.length ≤ b.index + 1) :
    Ended (persist ++ [r]) { b with index := b.index + 1 } last := by
  obtain ⟨earlier, mine, hpersist, hearlier, hmine, hrecipes, hcomplete⟩ := h.add hsequence hrecipe
  have hindex := h.index
  have hnone : ofSequence b.id earlier = [] := by
    rw [ofSequence_append] at hearlier
    exact (List.append_eq_nil_iff.mp hearlier).2
  have hown : ofSequence b.id (persist ++ [r]) = mine ++ [r] := by
    rw [hpersist, ofSequence_append, hnone, hmine, List.nil_append]
  have hlength : (mine ++ [r]).length = b.index + 1 := by
    have hlength := congrArg List.length hrecipes
    rw [List.length_map, List.length_take] at hlength
    omega
  refine ⟨hid, ?_, ?_, ?_⟩
  · show (ofSequence b.id _).map _ = b.recipes.take (ofSequence b.id _).length
    rw [hown, hlength]
    exact hrecipes
  · show ∀ r' ∈ (ofSequence b.id _).dropLast, _
    rw [hown, List.dropLast_concat]
    exact hcomplete
  · show _ ↔ (ofSequence b.id _).length = b.recipes.length ∧ ∀ r' ∈ ofSequence b.id _, _
    rw [hown, hlength, hlast]
    constructor
    · intro htrue
      have hover := hover htrue
      refine ⟨by omega, ?_⟩
      intro r' hr'
      rcases List.mem_append.mp hr' with hr' | hr'
      · exact hcomplete r' hr'
      · obtain rfl := List.mem_singleton.mp hr'
        exact htrue
    · rintro ⟨-, hall⟩
      exact hall r (List.mem_append_right _ List.mem_cons_self)

/-- The sequence goes on after a complete result. -/
theorem Running.next {persist : List TrialResult} {b : Batch} {T : Entry} {r : TrialResult}
    (h : Running stored persist (some T) b) (hsequence : r.sequence = T.sequence)
    (hrecipe : r.recipe = T.recipe) (hcomplete : r.complete = true)
    (hmore : b.index + 1 < b.recipes.length) :
    Running stored (persist ++ [r]) none { b with index := b.index + 1 } := by
  obtain ⟨earlier, mine, hpersist, hearlier, hmine, hrecipes, hearly⟩ := h.add hsequence hrecipe
  refine ⟨hmore, h.length, ?_, by intro T' hT'; cases hT'⟩
  refine ⟨earlier, mine ++ [r], hpersist, hearlier, hmine, hrecipes, ?_⟩
  intro r' hr'
  rcases List.mem_append.mp hr' with hr' | hr'
  · exact hearly r' hr'
  · obtain rfl := List.mem_singleton.mp hr'
    exact hcomplete

theorem Ok.ids_add (h : Ok stored first l) {T : Entry} {r : TrialResult}
    (htrial : l.trial = some T) (hid : r.id = T.id) :
    (l.persist ++ [r]).map (·.id) ++ [] = List.range' first (l.nextTrial - first) := by
  have hids := h.ids
  rw [htrial] at hids
  rw [List.append_nil, List.map_append, List.map_singleton, hid]
  exact hids

theorem Ok.results_add (h : Ok stored first l) (r : TrialResult) :
    lastResults (l.results ++ [r]) = lastResults (stored ++ (l.persist ++ [r])) := by
  rw [h.results, lastResults_append, List.append_assoc]

/-- A result adds nothing to a later sequence than its own. -/
theorem Ok.known_add (h : Ok stored first l) {r : TrialResult}
    (hr : ∀ id, l.nextSequence ≤ id → r.sequence.map (·.1) ≠ some id) (id : ℕ)
    (hid : l.nextSequence ≤ id) : ofSequence id (stored ++ (l.persist ++ [r])) = [] := by
  rw [← List.append_assoc, ofSequence_append, h.known id hid, ofSequence_one (hr id hid)]
  rfl

/-- A trial of no sequence finishes. -/
theorem Ok.finish_single (h : Ok stored first l) {T : Entry} {reason : String} {complete : Bool}
    (htrial : l.trial = some T) (hsequence : l.sequence = none) :
    Ok stored first (l.add T reason complete) := by
  have hsingle : T.sequence = none := h.single hsequence T htrial
  have hother (id : ℕ) : T.sequence.map (·.1) ≠ some id := by
    rw [hsingle]
    simp
  refine
    { ids := h.ids_add htrial rfl, first := h.first, results := h.results_add _
      known := h.known_add fun id _ => hother id, running := ?_, single := ?_, ended := ?_
      last := h.last }
  · intro b hb
    have hb : l.sequence = some b := hb
    rw [hsequence] at hb
    cases hb
  · intro _ T' hT'
    cases hT'
  · intro p hp
    obtain ⟨hid, hne, hended⟩ := h.ended p hp
    exact ⟨hid, hne, hended.add (hother _)⟩

/-- The trial of a sequence finishes, and the sequence ends or goes on. -/
theorem Ok.finish (h : Ok stored first l) {T : Entry} {reason : String} {complete : Bool}
    (htrial : l.trial = some T) :
    Ok stored first ((l.add T reason complete).advance reason complete) := by
  unfold Ledger.advance
  split
  · next hsequence => exact h.finish_single htrial hsequence
  · next b hb =>
    have hb : l.sequence = some b := hb
    obtain ⟨hid, hrunning⟩ := h.running b hb
    rw [htrial] at hrunning
    have hown : T.sequence.map (·.1) = some b.id := by
      rw [(hrunning.trial T rfl).1]
      rfl
    have hlater (id : ℕ) (hlater : l.nextSequence ≤ id) : T.sequence.map (·.1) ≠ some id := by
      rw [hown]
      intro heq
      obtain rfl := Option.some.inj heq
      omega
    have hended (p : Batch × LastSequence) (hp : p ∈ l.ended) : p.1.id < l.nextSequence ∧
        p.1.id ≠ b.id ∧ Ended (l.add T reason complete).persist p.1 p.2 := by
      obtain ⟨hid', hne, hended⟩ := h.ended p hp
      refine ⟨hid', hne b hb, hended.add ?_⟩
      show T.sequence.map (·.1) ≠ some p.1.id
      rw [hown]
      exact fun heq => hne b hb (Option.some.inj heq).symm
    dsimp only
    split
    · -- the sequence ends
      next hover =>
      refine
        { ids := h.ids_add htrial rfl, first := h.first, results := h.results_add _
          known := h.known_add hlater
          running := by intro b' hb'; cases hb'
          single := by intro _ T' hT'; cases hT'
          ended := ?_, last := rfl }
      intro p hp
      rcases List.mem_cons.mp hp with rfl | hp
      · refine ⟨hid, (by intro b' hb'; cases hb'), ?_⟩
        refine hrunning.ended_add rfl rfl rfl rfl ?_
        intro htrue
        have htrue : complete = true := htrue
        rw [htrue] at hover
        simpa using hover
      · obtain ⟨hid', -, hended'⟩ := hended p hp
        exact ⟨hid', (by intro b' hb'; cases hb'), hended'⟩
    · -- the next subtest
      next hover =>
      simp only [Bool.or_eq_true, Bool.not_eq_true', decide_eq_true_eq, not_or,
        Bool.not_eq_false, not_le] at hover
      refine
        { ids := h.ids_add htrial rfl, first := h.first, results := h.results_add _
          known := h.known_add hlater, running := ?_
          single := by intro hnone; cases hnone
          ended := ?_, last := h.last }
      · intro b' hb'
        obtain rfl := Option.some.inj hb'
        exact ⟨hid, hrunning.next rfl rfl hover.1 hover.2⟩
      · intro p hp
        obtain ⟨hid', hne, hended'⟩ := hended p hp
        refine ⟨hid', ?_, hended'⟩
        intro b' hb'
        obtain rfl := Option.some.inj hb'
        exact hne

theorem Step.ok (hstep : Step measured l l') (h : Ok stored first l) : Ok stored first l' := by
  cases hstep with
  | start htrial hrecipe => exact h.start htrial hrecipe
  | beginSequence htrial hsequence hne hlength => exact h.beginSequence htrial hne hlength
  | finish htrial hmeasured => exact h.finish htrial
  | endSequence htrial => exact h.endSequence htrial

/-- More may have been measured. -/
theorem Steps.mono {measured' : Prop} (hsteps : Steps measured l l') (h : measured → measured') :
    Steps measured' l l' := by
  induction hsteps with
  | refl => exact .refl
  | tail _ hstep ih =>
    refine ih.tail ?_
    cases hstep with
    | start htrial hrecipe => exact .start htrial hrecipe
    | beginSequence htrial hsequence hne hlength =>
      exact .beginSequence htrial hsequence hne hlength
    | finish htrial hmeasured => exact .finish htrial fun hcomplete => h (hmeasured hcomplete)
    | endSequence htrial => exact .endSequence htrial

theorem Steps.ok (hsteps : Steps measured l l') (h : Ok stored first l) : Ok stored first l' := by
  induction hsteps with
  | refl => exact h
  | tail _ hstep ih => exact hstep.ok ih

/-- Results are only added, and a complete one only where rest was measured. -/
theorem Step.persist (hstep : Step measured l l') :
    ∃ new, l'.persist = l.persist ++ new ∧ ∀ r ∈ new, r.complete = true → measured := by
  have hended (l : Ledger) (reason : String) (complete : Bool) :
      (l.endSequence reason complete).persist = l.persist := by
    unfold Ledger.endSequence
    split <;> rfl
  cases hstep with
  | start | beginSequence => exact ⟨[], (List.append_nil _).symm, by simp⟩
  | endSequence => exact ⟨[], by rw [hended, List.append_nil], by simp⟩
  | @finish T reason complete htrial hmeasured =>
    refine ⟨[{ id := T.id, recipe := T.recipe, sequence := T.sequence, complete, reason }], ?_, ?_⟩
    · unfold Ledger.advance
      split
      · rfl
      · dsimp only
        split
        · rw [hended]
          rfl
        · rfl
    · intro r hr
      obtain rfl := List.mem_singleton.mp hr
      exact hmeasured

theorem Steps.persist (hsteps : Steps measured l l') :
    ∃ new, l'.persist = l.persist ++ new ∧ ∀ r ∈ new, r.complete = true → measured := by
  induction hsteps with
  | refl => exact ⟨[], (List.append_nil _).symm, by simp⟩
  | tail _ hstep ih =>
    obtain ⟨new, hnew, hcomplete⟩ := ih
    obtain ⟨new', hnew', hcomplete'⟩ := hstep.persist
    refine ⟨new ++ new', by rw [hnew', hnew, List.append_assoc], ?_⟩
    intro r hr
    rcases List.mem_append.mp hr with hr | hr
    · exact hcomplete r hr
    · exact hcomplete' r hr

end Steps

end Ledger

end SerialLink
