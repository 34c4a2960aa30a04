/-
Periodic timers.

A loop that does something when the clock has reached a due time, and then sets the due time
one period ahead of the reading, does it at times at least one period apart.

* `Periodic.fire` — a timer that fires when it is due stays periodic;
* `Periodic.window` — how often it fires in a window.
-/
import Mathlib

/-- When a timer has fired, the latest first, and when it is due. -/
structure Periodic (period due : ℕ) (times : List ℕ) : Prop where
  apart : times.Pairwise fun later earlier => earlier + period ≤ later
  past : ∀ t ∈ times, t + period ≤ due

namespace Periodic

variable {period due due' now lo width : ℕ} {times : List ℕ}

theorem nil : Periodic period due [] := ⟨List.Pairwise.nil, by simp⟩

/-- It is put off. -/
theorem later (h : Periodic period due times) (hle : due ≤ due') : Periodic period due' times := by
  refine ⟨h.apart, ?_⟩
  intro t ht
  have hpast := h.past t ht
  omega

/-- It fires, and is due one period later. -/
theorem fire (h : Periodic period due times) (hdue : due ≤ now) :
    Periodic period (now + period) (now :: times) := by
  constructor
  · rw [List.pairwise_cons]
    refine ⟨?_, h.apart⟩
    intro t ht
    have hpast := h.past t ht
    omega
  · intro t ht
    rcases List.mem_cons.mp ht with rfl | ht
    · omega
    · have hpast := h.past t ht
      omega

/-- The latest of some times is as many periods after `lo` as there are earlier ones. -/
theorem length_mul_le {t : ℕ}
    (h : (t :: times).Pairwise fun later earlier => earlier + period ≤ later)
    (hlo : ∀ u ∈ t :: times, lo ≤ u) : lo + times.length * period ≤ t := by
  induction times generalizing t with
  | nil => simpa using hlo t
  | cons u us ih =>
    rw [List.pairwise_cons] at h
    have hearlier := ih h.2 fun v hv => hlo v (List.mem_cons_of_mem t hv)
    have hgap := h.1 u (by simp)
    rw [List.length_cons, Nat.succ_mul]
    omega

/-- In a window it fires at most once more than periods fit. -/
theorem window (h : Periodic period due times) (hwidth : 0 < width) :
    (times.filter fun t => lo ≤ t ∧ t < lo + width).length * period < width + period := by
  set inside := times.filter fun t => lo ≤ t ∧ t < lo + width with hinside
  have hapart : inside.Pairwise fun later earlier => earlier + period ≤ later :=
    h.apart.sublist List.filter_sublist
  have hmem : ∀ t ∈ inside, lo ≤ t ∧ t < lo + width := by
    intro t ht
    have hinside := (List.mem_filter.mp ht).2
    simpa only [decide_eq_true_eq] using hinside
  cases hlist : inside with
  | nil => simp only [List.length_nil]; omega
  | cons t ts =>
    rw [hlist] at hapart hmem
    have hspan : lo + ts.length * period ≤ t :=
      length_mul_le hapart fun u hu => (hmem u hu).1
    have hlast := (hmem t (by simp)).2
    rw [List.length_cons, Nat.succ_mul]
    omega

end Periodic
