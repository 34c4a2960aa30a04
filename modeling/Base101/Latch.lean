/-
A latch read off a trace.

A trace holds what happened, latest first.  Some entries set the latch and some
reset it; `latched` is where it stands after the whole trace.  `Guarded` says that
entries of a third kind happen only while the latch is not set.

* `Guarded.reset_between` — between an entry that sets the latch and a later guarded
  entry stands one that resets it.
-/
import Mathlib

section Latch

variable {α : Type*} (sets resets : α → Bool)

/-- The latch after the trace. -/
def latched : List α → Bool
  | [] => false
  | x :: earlier => if sets x then true else if resets x then false else latched earlier

/-- Every guarded entry found the latch not set. -/
def Guarded (guarded : α → Bool) (trace : List α) : Prop :=
  ∀ later x earlier, trace = later ++ x :: earlier → guarded x →
    latched sets resets earlier = false

variable {sets resets} {guarded : α → Bool} {x : α} {trace new : List α}

/-- Entries that neither set nor reset the latch leave it alone. -/
theorem latched_append (h : ∀ y ∈ new, sets y = false ∧ resets y = false) :
    latched sets resets (new ++ trace) = latched sets resets trace := by
  induction new with
  | nil => rfl
  | cons y new ih =>
    obtain ⟨hset, hreset⟩ := h y List.mem_cons_self
    rw [List.cons_append, latched, hset, hreset]
    exact ih fun z hz => h z (List.mem_cons_of_mem _ hz)

/-- A latch that is not set has been reset since it was last set. -/
theorem exists_reset_of_latched (hset : sets x)
    (h : latched sets resets (new ++ x :: trace) = false) : ∃ y ∈ new, resets y := by
  induction new with
  | nil => simp [latched, hset] at h
  | cons y new ih =>
    rw [List.cons_append, latched] at h
    by_cases hy : resets y = true
    · exact ⟨y, List.mem_cons_self, hy⟩
    · have hy' : sets y = false := by
        by_contra hne
        simp [hne] at h
      simp only [hy', hy, Bool.false_eq_true, if_false] at h
      obtain ⟨z, hz, hreset⟩ := ih h
      exact ⟨z, List.mem_cons_of_mem _ hz, hreset⟩

theorem Guarded.nil : Guarded sets resets guarded [] := by
  intro later x earlier h
  exact absurd h.symm (List.append_ne_nil_of_right_ne_nil _ (List.cons_ne_nil _ _))

/-- One more entry: a guarded one needs the latch not set. -/
theorem Guarded.cons (h : Guarded sets resets guarded trace)
    (hx : guarded x → latched sets resets trace = false) :
    Guarded sets resets guarded (x :: trace) := by
  intro later y earlier htrace hy
  cases later with
  | nil =>
    obtain ⟨rfl, rfl⟩ := List.cons.inj htrace
    exact hx hy
  | cons z later => exact h later y earlier (List.cons.inj htrace).2 hy

/-- Entries that are not guarded. -/
theorem Guarded.append (h : Guarded sets resets guarded trace)
    (hnew : ∀ y ∈ new, guarded y = false) : Guarded sets resets guarded (new ++ trace) := by
  induction new with
  | nil => exact h
  | cons y new ih =>
    refine (ih fun z hz => hnew z (List.mem_cons_of_mem _ hz)).cons ?_
    intro hy
    rw [hnew y List.mem_cons_self] at hy
    cases hy

/-- **Between an entry that sets the latch and a later guarded one stands a reset.** -/
theorem Guarded.reset_between {later between earlier : List α} {y : α}
    (h : Guarded sets resets guarded (later ++ x :: (between ++ y :: earlier)))
    (hx : guarded x) (hy : sets y) : ∃ z ∈ between, resets z :=
  exists_reset_of_latched hy (h later x _ rfl hx)

end Latch
