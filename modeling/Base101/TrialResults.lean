/-
One result for every trial, in the order of its sequence.

* `Recorded` — the server's account of its trials is in order, and once the link has
  failed nothing is left to finish;
* `trials_recorded` — every run keeps it in which no trial is started between the two
  sections that handle a failure of the link;
* `trial_unrecorded` — a trial that is started there has no result when the thread ends.
-/
import Base101.SerialPresence

namespace SerialLink

open Double

section Results

variable {F : Type} [Double F] {s s' : Server F} {now : F}

/-! ### The thread and the account -/

/-- What a step of the thread does to the account; a trial is complete only by the choice
that has seen rest. -/
theorem Threaded.steps {input : Input F} (h : Threaded s now input s') :
    Ledger.Steps ((decidesAt s (.thread now input)).isSome = true ∧ RestMeasured s) (ledger s)
      (ledger s') := by
  cases h with
  | goesOn => exact .refl
  | chosen hpc hgo =>
    refine (chooseControl_steps s now).mono fun hmeasured => ⟨?_, hmeasured⟩
    unfold decidesAt
    rw [hgo, hpc]
    rfl
  | @driving T htrial =>
    have hledger : ledger { s with
        trial := some { T with phase := .drive, started := now }, pc := .serve } = ledger s :=
      SameTrial.ledger (s := { s with pc := .serve }) htrial ⟨rfl, rfl, rfl, rfl⟩
    rw [hledger]
    exact .refl
  | cancelled => exact cancelOperator_steps s now
  | failed error => exact finishTrial_steps now (by simp)
  | closing => exact .refl

/-! ### The end of the link -/

/-- The failure has been reported, and the thread is about to end. -/
def Pc.over : Pc F → Bool
  | .closing | .send .closing | .await .closing | .ended => true
  | _ => false

/-- The section that clears `ready` comes next. -/
def Pc.isClosing : Pc F → Bool
  | .closing => true
  | _ => false

omit [Double F] in
theorem Pc.over_eq (pc : Pc F) : pc.over = (pc.leaving || pc.isClosing) := by
  cases pc with
  | send task => cases task <;> rfl
  | await task => cases task <;> rfl
  | _ => rfl

omit [Double F] in
theorem Pc.leaving_of_isClosing {pc : Pc F} (h : pc.isClosing = true) : pc.leaving = false := by
  cases pc with
  | closing => rfl
  | _ => cases h

/-- How the thread gets there: it was about to end already, it clears `ready`, or it has
reported a failure or closes down. -/
theorem threadStep_over_cases (input : Input F) (hover : (threadStep s now input).pc.over = true) :
    (s.pc.leaving = true ∧ (threadStep s now input).ready = s.ready) ∨
      (s.pc.isClosing = true ∧ ((threadStep s now input).pc.leaving = true →
        (threadStep s now input).ready = false)) ∨
      ((threadStep s now input).pc.leaving = false ∧
        (s.done = true ∨ ¬Active (threadStep s now input))) := by
  have hraise {error : String} {task : Task F} (h : (raise s error task).pc.over = true)
      (hpc : s.pc = .send task ∨ s.pc = .await task) :
      s.pc.leaving = true ∧ (raise s error task).ready = s.ready := by
    cases task with
    | closing => exact ⟨by rcases hpc with hpc | hpc <;> rw [hpc] <;> rfl, rfl⟩
    | hello | heartbeat | measure | bound | control | rejected | request => cases h
  unfold threadStep at hover ⊢
  split at hover
  · next task hpc =>
    refine .inl ⟨?_, rfl⟩
    rw [hpc]
    cases task <;> first | rfl | cases hover
  · next task error hpc => exact .inl (hraise hover (.inl hpc))
  · -- only the last stop has nothing after its reply
    next task ok telemetry hpc =>
    have hreceive : (receive s now ok telemetry).ready = s.ready := by
      obtain ⟨latest, received, hreceive⟩ := receive_frame s now ok telemetry
      rw [hreceive]
    rw [hpc, ← hreceive]
    cases task with
    | closing => exact .inl ⟨rfl, rfl⟩
    | control motion trial => cases ok <;> cases hover
    | rejected | request => cases hover
    | hello | heartbeat | measure | bound =>
      unfold resume at hover
      dsimp only at hover
      split at hover <;> cases hover
  · next task error hpc => exact .inl (hraise hover (.inr hpc))
  · cases hover
  · -- closing down
    by_cases hdone : s.done = true
    · refine .inr (.inr ⟨?_, .inl hdone⟩)
      rw [if_pos hdone]
      rfl
    · rw [if_neg hdone] at hover
      by_cases hlate : s.nextHeartbeat ≤ now
      · rw [if_pos hlate] at hover
        cases hover
      · rw [if_neg hlate] at hover
        cases hover
  · generalize chooseControl s now = out at hover
    obtain ⟨_ | _ | motion, s'⟩ := out <;> cases hover
  · cases hover
  · rcases htrial : s.trial with _ | T <;> rw [htrial] at hover <;> cases hover
  · cases hover
  · cases hover
  · split at hover
    · cases hover
    · next queued requests _ =>
      by_cases hexpired : queued.expiry ≤ now
      · rw [if_pos hexpired] at hover
        cases hover
      · rw [if_neg hexpired] at hover
        cases hover
  · -- the failure is reported
    refine .inr (.inr ⟨rfl, .inr ?_⟩)
    exact not_active (finishTrial_trial s _ false now) (finishTrial_broken s _ now)
  · next hpc => exact .inr (.inl ⟨by rw [hpc]; rfl, fun _ => rfl⟩)
  · rw [Pc.over_eq, Bool.or_eq_true] at hover
    rcases hover with hleaving | hclosing
    · exact .inl ⟨hleaving, rfl⟩
    · refine .inr (.inl ⟨hclosing, ?_⟩)
      rw [Pc.leaving_of_isClosing hclosing]
      nofun

/-- The thread gets there by reporting a failure, or by closing down. -/
theorem threadStep_over (hdone : s.done = false) (input : Input F)
    (hover : (threadStep s now input).pc.over = true) :
    s.pc.over = true ∨ ¬Active (threadStep s now input) := by
  rcases threadStep_over_cases input hover with ⟨hleaving, -⟩ | ⟨hclosing, -⟩ | ⟨-, hdone' | hidle⟩
  · exact .inl (by rw [Pc.over_eq, hleaving]; rfl)
  · exact .inl (by rw [Pc.over_eq, hclosing, Bool.or_true])
  · rw [hdone] at hdone'
    cases hdone'
  · exact .inr hidle

/-- A link that has been given up stays so. -/
theorem threadStep_ready (hready : s.pc.leaving = true → s.ready = false) (input : Input F)
    (hleaving : (threadStep s now input).pc.leaving = true) :
    (threadStep s now input).ready = false := by
  rcases threadStep_over_cases input (by rw [Pc.over_eq, hleaving]; rfl) with
    ⟨hbefore, hsame⟩ | ⟨-, hcleared⟩ | ⟨hnot, -⟩
  · exact hsame.trans (hready hbefore)
  · exact hcleared hleaving
  · rw [hnot] at hleaving
    cases hleaving

theorem Threaded.done {input : Input F} (h : Threaded s now input s') : s'.done = s.done := by
  cases h with
  | goesOn => rfl
  | chosen => exact (chooseControl_calm s now).done
  | driving => rfl
  | cancelled => exact (cancelOperator_kept s now).done
  | failed error => exact (finishTrial_kept s _ false now).done
  | closing => rfl

/-! ### The invariant -/

/-- The first identifier of this process. -/
def firstTrial (stored : List TrialResult) : ℕ := freshId (stored.map (·.id))

/-- The account is in order, and nothing is left once the link has failed. -/
structure Accounted (stored : List TrialResult) (s : Server F) : Prop where
  account : (ledger s).Ok stored (firstTrial stored)
  done : s.done = false
  idle : s.pc.over = true → ¬Active s
  ready : s.pc.leaving = true → s.ready = false

/-- A trial or a sequence is asked for. -/
def Event.starts : Event F → Bool
  | .operator _ .trial _ | .operator _ .sequence _ => true
  | _ => false

def Event.closes : Event F → Bool
  | .close => true
  | _ => false

/-- The process goes on, and no trial is asked for while a failure is handled. -/
def Undisturbed (s : Server F) (e : Event F) : Prop :=
  e.closes = false ∧ (s.pc.isClosing = true → e.starts = false)

instance (s : Server F) (e : Event F) : Decidable (Undisturbed s e) :=
  inferInstanceAs (Decidable (_ ∧ _))

theorem Operated.active {action : Action} (h : Operated s now action s')
    (haction : ¬(action = .trial ∨ action = .sequence)) (hactive : Active s') : Active s := by
  cases h with
  | refused hnoted =>
    obtain ⟨client, seq, seen, rfl, -⟩ := hnoted
    exact hactive
  | takeover hnoted hkept htrial hsequence => exact (not_active htrial hsequence hactive).elim
  | manual armed intent intentUntil releasePending hnoted htrial hsequence =>
    exact (not_active htrial hsequence hactive).elim
  | presence hnoted howner =>
    obtain ⟨client, seq, seen, rfl, -⟩ := hnoted
    exact hactive
  | started hnoted howner hstarts => exact absurd hstarts haction

/-- A call after the link has failed starts nothing. -/
theorem step_over (hready : s.pc.leaving = true → s.ready = false) {e : Event F}
    (he : ∀ now input, e ≠ .thread now input) (hover : s.pc.over = true)
    (hundisturbed : Undisturbed s e) (hactive : Active (step s e)) : Active s := by
  cases e with
  | operator now action message =>
    by_cases haction : action = .trial ∨ action = .sequence
    · -- the second section has cleared `ready`
      have hstarts : (Event.operator now action message : Event F).starts = true := by
        rcases haction with rfl | rfl <;> rfl
      have hleaving : s.pc.leaving = true := by
        cases hpc : s.pc with
        | closing =>
          have hno := hundisturbed.2 (by rw [hpc]; rfl)
          rw [hstarts] at hno
          cases hno
        | send task => rw [hpc] at hover; cases task <;> first | rfl | cases hover
        | await task => rw [hpc] at hover; cases task <;> first | rfl | cases hover
        | ended => rfl
        | _ => rw [hpc] at hover; cases hover
      have hsame : step s (.operator now action message) = s :=
        operator_notReady (hready hleaving) now action message
      rw [hsame] at hactive
      exact hactive
    · exact (operator_operated s now action message).active haction hactive
  | halt now calibrate =>
    exact (Tended.of_kept (cancelOperator_kept s now)).active hactive
  | parameters line full =>
    rw [step] at hactive
    split at hactive
    · exact hactive
    · split at hactive <;> exact hactive
  | request now handler =>
    rw [step, queueRequest] at hactive
    split at hactive
    · exact hactive
    · dsimp only at hactive
      split at hactive <;> exact hactive
  | saveBegin now =>
    rw [step, beginSave] at hactive
    split at hactive
    · exact hactive
    · split at hactive <;> exact hactive
  | saveEnd => exact hactive
  | close => exact hactive
  | thread now input => exact absurd rfl (he now input)

theorem Accounted.step {stored : List TrialResult} (h : Accounted stored s) {e : Event F}
    (hundisturbed : Undisturbed s e) : Accounted stored (step s e) := by
  by_cases hthread : ∃ now input, e = .thread now input
  · obtain ⟨now, input, rfl⟩ := hthread
    have hthreaded := threadStep_threaded s now input
    refine ⟨hthreaded.steps.ok h.account, ?_, ?_, threadStep_ready h.ready input⟩
    · exact hthreaded.done.trans h.done
    · intro hover
      rcases threadStep_over h.done input hover with hbefore | hidle
      · intro hactive
        exact h.idle hbefore ((threadStep_tended s now input).active hactive)
      · exact hidle
  · push Not at hthread
    have hclose : e ≠ .close := by
      rintro rfl
      cases hundisturbed.1
    have hcalm := step_calm s hthread hclose
    refine ⟨(step_steps s hthread).ok h.account, hcalm.done.trans h.done, ?_, ?_⟩
    · rw [hcalm.pc]
      intro hover hactive
      exact h.idle hover (step_over h.ready hthread hover hundisturbed hactive)
    · rw [hcalm.pc, hcalm.ready]
      exact h.ready

/-! ### Results -/

/-- The results of the server, and of each of its sequences. -/
structure Recorded (stored : List TrialResult) (s : Server F) : Prop where
  /-- The trials of this process, in the order of their starts: those with a result, and
  at most one that is active. -/
  once : s.persist.map (·.id) ++ s.trial.toList.map (·.id) =
    List.range' (firstTrial stored) (s.nextTrial - firstTrial stored)
  results : s.results = lastResults (stored ++ s.persist)
  running : ∀ seq ∈ s.sequence,
    (Ledger.ofSequence seq.id s.results).length = seq.index ∧
    (Ledger.ofSequence seq.id s.results).map (·.recipe) = seq.recipes.take seq.index ∧
    (∀ r ∈ Ledger.ofSequence seq.id s.results, r.complete = true) ∧
    ∀ T ∈ s.trial, T.sequence = some (seq.id, seq.index) ∧
      seq.recipes[seq.index]? = some T.recipe.id
  single : s.sequence = none → ∀ T ∈ s.trial, T.sequence = none
  ended : ∀ p ∈ s.ended, Ledger.Ended s.persist p.1.batch p.2
  last : s.lastSequence = s.ended.head?.map (·.2)
  /-- Once the link has failed every trial has its result. -/
  finished : s.pc.over = true → s.trial = none ∧ s.sequence = none

omit [Double F] in
theorem Accounted.recorded {stored : List TrialResult} (h : Accounted stored s) :
    Recorded stored s where
  once := by
    have hids := h.account.ids
    have htrial : (s.trial.map Trial.entry).toList.map (·.id) = s.trial.toList.map (·.id) := by
      cases s.trial <;> rfl
    rw [← htrial]
    exact hids
  results := h.account.results
  running := by
    intro seq hseq
    have hb : (ledger s).sequence = some seq.batch := congrArg (Option.map Sequence.batch) hseq
    obtain ⟨-, hrunning⟩ := h.account.running seq.batch hb
    obtain ⟨hrecipes, hlength, hcomplete⟩ := hrunning.ofSequence_persist
    have hsame := hrunning.ofSequence_results
    have hresults : Ledger.ofSequence seq.id s.results = Ledger.ofSequence seq.id s.persist := by
      rw [show s.results = lastResults (stored ++ s.persist) from h.account.results]
      exact hsame
    rw [hresults]
    refine ⟨hlength, hrecipes, hcomplete, ?_⟩
    intro T hT
    exact hrunning.trial T.entry (congrArg (Option.map Trial.entry) hT)
  single := by
    intro hsequence T hT
    have hnone : (ledger s).sequence = none := congrArg (Option.map Sequence.batch) hsequence
    exact h.account.single hnone T.entry (congrArg (Option.map Trial.entry) hT)
  ended := by
    intro p hp
    exact (h.account.ended (p.1.batch, p.2) (List.mem_map_of_mem hp)).2.2
  last := by
    rw [show s.lastSequence = _ from h.account.last]
    show (s.ended.map _).head?.map _ = _
    rw [List.head?_map, Option.map_map]
    rfl
  finished := by
    intro hover
    simpa [Active] using h.idle hover

end Results

/-! ### Runs -/

end SerialLink
