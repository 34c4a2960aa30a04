/-
Event machines and their runs.

A `Machine` consumes events one at a time; some events carry a clock reading.
A run is a list of events, and it is timely when the readings never run
backwards.  `Machine.invariant` is the one induction over runs: an invariant
that may mention the clock and that every admissible step keeps holds at the
end of every timely run.  Steps may be required to meet a guard, and
`Machine.always_of_guarded` turns an invariant into a property of every step.
-/
import Mathlib

/-- A deterministic component driven by events. -/
structure Machine (σ ε : Type*) where
  step : σ → ε → σ
  /-- The clock reading an event carries, if any. -/
  time : ε → Option UInt64

namespace Machine

variable {σ ε : Type*} (M : Machine σ ε)

/-- The state after the events, in order. -/
def run (s : σ) (es : List ε) : σ := es.foldl M.step s

/-- The clock after an event. -/
def after (t : UInt64) (e : ε) : UInt64 := (M.time e).getD t

/-- The clock after the events. -/
def clock (t : UInt64) (es : List ε) : UInt64 := es.foldl M.after t

/-- The reading of `e`, if any, is not before `t`. -/
def Admits (t : UInt64) (e : ε) : Prop := t ≤ M.after t e

instance (t : UInt64) (e : ε) : Decidable (M.Admits t e) :=
  inferInstanceAs (Decidable (_ ≤ _))

/-- The readings never run backwards, starting from `t`. -/
def Timely : UInt64 → List ε → Prop
  | _, [] => True
  | t, e :: es => M.Admits t e ∧ Timely (M.after t e) es

instance decidableTimely : (t : UInt64) → (es : List ε) → Decidable (M.Timely t es)
  | _, [] => .isTrue trivial
  | t, e :: es =>
    have := decidableTimely (M.after t e) es
    inferInstanceAs (Decidable (_ ∧ _))

/-- Every step of the run has the property, as seen from the state before it. -/
def Always (P : σ → ε → Prop) : σ → List ε → Prop
  | _, [] => True
  | s, e :: es => P s e ∧ Always P (M.step s e) es

instance decidableAlways (P : σ → ε → Prop) [∀ s e, Decidable (P s e)] :
    (s : σ) → (es : List ε) → Decidable (Always M P s es)
  | _, [] => .isTrue trivial
  | s, e :: es =>
    have := decidableAlways P (M.step s e) es
    inferInstanceAs (Decidable (_ ∧ _))

@[simp] theorem run_nil (s : σ) : M.run s [] = s := rfl

@[simp] theorem run_cons (s : σ) (e : ε) (es : List ε) :
    M.run s (e :: es) = M.run (M.step s e) es := rfl

theorem run_append (s : σ) (es fs : List ε) :
    M.run s (es ++ fs) = M.run (M.run s es) fs := List.foldl_append

@[simp] theorem clock_nil (t : UInt64) : M.clock t [] = t := rfl

@[simp] theorem clock_cons (t : UInt64) (e : ε) (es : List ε) :
    M.clock t (e :: es) = M.clock (M.after t e) es := rfl

variable {M}

theorem timely_append {t : UInt64} {es fs : List ε} :
    M.Timely t (es ++ fs) ↔ M.Timely t es ∧ M.Timely (M.clock t es) fs := by
  induction es generalizing t with
  | nil => simp [Timely]
  | cons e es ih => simp [Timely, ih, and_assoc]

theorem always_append {P : σ → ε → Prop} {s : σ} {es fs : List ε} :
    M.Always P s (es ++ fs) ↔ M.Always P s es ∧ M.Always P (M.run s es) fs := by
  induction es generalizing s with
  | nil => simp [Always]
  | cons e es ih => simp [Always, ih, and_assoc]

/-- A property of every step, read at one step of the run. -/
theorem Always.at {P : σ → ε → Prop} {s : σ} {pre post : List ε} {e : ε}
    (h : M.Always P s (pre ++ e :: post)) : P (M.run s pre) e :=
  (always_append.mp h).2.1

/-- And at its last step. -/
theorem Always.last {P : σ → ε → Prop} {s : σ} {pre : List ε} {e : ε}
    (h : M.Always P s (pre ++ [e])) : P (M.run s pre) e := h.at

theorem always_congr {P Q : σ → ε → Prop} (h : ∀ s e, P s e ↔ Q s e) {s : σ} {es : List ε} :
    M.Always P s es ↔ M.Always Q s es := by
  induction es generalizing s with
  | nil => exact Iff.rfl
  | cons e es ih => exact and_congr (h s e) ih

theorem always_and {P Q : σ → ε → Prop} {s : σ} {es : List ε} :
    M.Always (fun s e => P s e ∧ Q s e) s es ↔ M.Always P s es ∧ M.Always Q s es := by
  induction es generalizing s with
  | nil => simp [Always]
  | cons e es ih =>
    simp only [Always, ih]
    tauto

section Invariant

variable {I : UInt64 → σ → Prop} {G : σ → ε → Prop}

/-- An invariant of the admissible steps that meet the guard holds at the end
of every timely run whose steps all meet it. -/
theorem invariant
    (hstep : ∀ t s e, I t s → M.Admits t e → G s e → I (M.after t e) (M.step s e))
    {t : UInt64} {s : σ} {es : List ε} (h : I t s) (ht : M.Timely t es)
    (hG : M.Always G s es) : I (M.clock t es) (M.run s es) := by
  -- on the events; the clock and the state move on together
  induction es generalizing t s with
  | nil => exact h
  | cons e es ih =>
    have hnext : I (M.after t e) (M.step s e) := hstep t s e h ht.1 hG.1
    exact ih hnext ht.2 hG.2

theorem always_true {s : σ} {es : List ε} : M.Always (fun _ _ => True) s es := by
  induction es generalizing s with
  | nil => trivial
  | cons e es ih => exact ⟨trivial, ih⟩

/-- Without a guard: an invariant of the admissible steps. -/
theorem invariant_of_step
    (hstep : ∀ t s e, I t s → M.Admits t e → I (M.after t e) (M.step s e))
    {t : UInt64} {s : σ} {es : List ε} (h : I t s) (ht : M.Timely t es) :
    I (M.clock t es) (M.run s es) :=
  invariant (G := fun _ _ => True) (fun t s e hI ha _ => hstep t s e hI ha) h ht always_true

end Invariant

/-- An invariant of every step, whatever the clock reads. -/
theorem run_invariant {I : σ → Prop} (hstep : ∀ s e, I s → I (M.step s e)) {s : σ}
    {es : List ε} (h : I s) : I (M.run s es) := by
  induction es generalizing s with
  | nil => exact h
  | cons e es ih => exact ih (hstep s e h)

/-- An invariant of the guarded steps, whatever the clock reads. -/
theorem run_of_guarded {I : σ → Prop} {G : σ → ε → Prop}
    (hstep : ∀ s e, I s → G s e → I (M.step s e)) {s : σ} {es : List ε} (h : I s)
    (hG : M.Always G s es) : I (M.run s es) := by
  induction es generalizing s with
  | nil => exact h
  | cons e es ih => exact ih (hstep s e h hG.1) hG.2

/-- An invariant of the guarded steps, and what it says at each of them, without
the clock. -/
theorem always_of_guarded {I : σ → Prop} {G P : σ → ε → Prop}
    (hstep : ∀ s e, I s → G s e → I (M.step s e)) (hP : ∀ s e, I s → G s e → P s e)
    {s : σ} {es : List ε} (h : I s) (hG : M.Always G s es) : M.Always P s es := by
  induction es generalizing s with
  | nil => trivial
  | cons e es ih =>
    constructor
    · exact hP s e h hG.1
    · exact ih (hstep s e h hG.1) hG.2

end Machine
