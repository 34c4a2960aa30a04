/-
Runs of a fallible step, and two runs beside each other.

A step that fails leaves the state as it was.  `responses` lists what the calls of a run
return; two runs whose states are related return related responses, whatever relation
the step keeps.

* `responses_related` — the simulation of one run by another;
* `responses_keep` — an invariant of the successful steps holds of every response.
-/
import Mathlib

section Responses

variable {σ ε ω : Type*} (step : σ → ε → Option (σ × ω))

/-- The state after a call. -/
def afterCall (s : σ) (e : ε) : σ := ((step s e).map Prod.fst).getD s

/-- What each call of a run returns: `none` if it was refused. -/
def responses : σ → List ε → List (Option (σ × ω))
  | _, [] => []
  | s, e :: es => step s e :: responses (afterCall step s e) es

variable {step} {σ' ε' ω' : Type*} {step' : σ' → ε' → Option (σ' × ω')}

/-- Two states stay related after calls whose responses are. -/
theorem afterCall_related {R : σ → σ' → Prop} {S : σ × ω → σ' × ω' → Prop} {s : σ} {s' : σ'}
    {e : ε} {e' : ε'} (hS : ∀ out out', S out out' → R out.1 out'.1) (hs : R s s')
    (hstep : Option.Rel S (step s e) (step' s' e')) :
    R (afterCall step s e) (afterCall step' s' e') := by
  rw [afterCall, afterCall]
  generalize step s e = out at hstep
  generalize step' s' e' = out' at hstep
  cases hstep with
  | some hout => exact hS _ _ hout
  | none => exact hs

/-- If related states answer related calls with related responses, then so do their runs. -/
theorem responses_related {R : σ → σ' → Prop} {E : ε → ε' → Prop} {S : σ × ω → σ' × ω' → Prop}
    (hstep : ∀ s s' e e', R s s' → E e e' → Option.Rel S (step s e) (step' s' e'))
    (hS : ∀ out out', S out out' → R out.1 out'.1) {s : σ} {s' : σ'} {es : List ε}
    {es' : List ε'} (hs : R s s') (hes : List.Forall₂ E es es') :
    List.Forall₂ (Option.Rel S) (responses step s es) (responses step' s' es') := by
  -- on the two lists of calls; the two states stay related
  induction hes generalizing s s' with
  | nil => exact .nil
  | cons he _ ih =>
    have hnext := hstep s s' _ _ hs he
    exact .cons hnext (ih (afterCall_related hS hs hnext))

/-- An invariant of the successful steps holds of every response of the run. -/
theorem responses_keep {I : σ → Prop} {G : ε → Prop}
    (hstep : ∀ s e out, I s → G e → step s e = some out → I out.1) {s : σ} {es : List ε}
    (hs : I s) (hes : ∀ e ∈ es, G e) {out : σ × ω} (hout : some out ∈ responses step s es) :
    I out.1 := by
  induction es generalizing s with
  | nil => cases hout
  | cons e es ih =>
    have he := hes e List.mem_cons_self
    have hrest : ∀ e ∈ es, G e := fun e he => hes e (List.mem_cons_of_mem _ he)
    rcases List.mem_cons.mp hout with heq | hmem
    · exact hstep s e out hs he heq.symm
    · refine ih ?_ hrest hmem
      rw [afterCall]
      cases hnext : step s e with
      | none => exact hs
      | some next => exact hstep s e next hs he hnext

end Responses
