/-
The results of trials, in memory and on disk (`SerialLink.__init__`, `_write_results`,
`_finish_trial_locked` and `review_trial`, `tools/calibration/server.py`).

A finished trial and every review of it go to a queue, from which a thread writes them: to a
temporary file, which then replaces the file of the result.  The process may end at any
point, and a new one starts from the files it finds.

`os.replace` puts the file under the other name or raises; a write that raises, or that the
end of the process cuts off, may leave any part of the file.

* `step`, `put` — what happens to the results, and what it puts on the queue;
* `crash_consistent` — the directory always holds whole results, brought up to date in the
  order of the queue;
* `restart_restores` — a new process shows what the old one did, but for what was still on
  its way.
-/
import Base101.CalibrationServer
import Base101.CalibrationTrials
import Base101.Machine
import Base101.OrderedDict

namespace ResultStore

open CalibrationServer (JsonValue)

/-- A result; a review does not touch its `body`. -/
structure StoredResult (R : Type) where
  id : String
  date : String
  sequenceId : Option String
  observation : String
  notes : Option String
  referenceM : Option ℚ
  body : R
deriving DecidableEq

/-- A file: a result, or what `__init__` passes over. -/
inductive File (R : Type)
  | result (r : StoredResult R)
  | other
deriving DecidableEq

/-- What the writing thread is about to do. -/
inductive Writer (R : Type)
  | waiting
  | writing (r : StoredResult R)
  | replacing (r : StoredResult R)

structure Store (R : Type) where
  results : List (StoredResult R)
  persist : List (StoredResult R)
  writer : Writer R
  /-- The files `*.json`, by their stems. -/
  json : OrderedDict String (File R)
  /-- The files `*.tmp`, by their stems. -/
  tmp : String → Option (File R)
  storageError : Option String

/-- A value of a request that should be a string. -/
inductive Field
  | absent
  | null
  | text (s : String)
  | other
deriving DecidableEq

structure ReviewPayload where
  id : Field
  sequenceId : Field
  observation : Field
  notes : Field
  /-- `none` where it is absent or null. -/
  referenceM : Option JsonValue

/-- An accepted review: the rows it is for, and what it makes of each. -/
structure Review (R : Type) where
  rows : StoredResult R → Bool
  update : StoredResult R → StoredResult R

inductive Event (R : Type)
  | finished (id date : String) (sequenceId : Option String) (body : R)
  /-- `review_trial`, and whether a sequence is active. -/
  | reviewed (payload : ReviewPayload) (sequence : Bool)
  /-- `persist.get` returns. -/
  | taken
  | written
  /-- `json.dumps` or `write_text` raises, maybe in the middle of the file. -/
  | notWritten (torn : Bool) (error : String)
  | replaced
  | notReplaced (error : String)
  /-- The process ends, maybe in the middle of a file, and a new one starts. -/
  | restarted (torn : Bool)

section Model

variable {R : Type}

/-! ### Starting -/

def accepted : File R → Option (StoredResult R)
  | .result r => some r
  | .other => none

def lastKept (l : List (StoredResult R)) : List (StoredResult R) :=
  l.drop (l.length - SerialLink.resultsKept)

/-- The last files by name, as far as they are results, in the order of their dates. -/
def load (json : OrderedDict String (File R)) : List (StoredResult R) :=
  let names := json.items.mergeSort fun p q => p.1 ++ ".json" ≤ q.1 ++ ".json"
  let files := (names.drop (names.length - SerialLink.resultsKept)).map Prod.snd
  (files.filterMap accepted).mergeSort fun r r' => r.date ≤ r'.date

/-- `__init__`. -/
def boot (json : OrderedDict String (File R)) (tmp : String → Option (File R)) : Store R where
  results := load json
  persist := []
  writer := .waiting
  json
  tmp
  storageError := none

/-! ### Finishing and reviewing -/

/-- The result of `_finish_trial_locked`. -/
def finishedResult (id date : String) (sequenceId : Option String) (body : R) :
    StoredResult R where
  id
  date
  sequenceId
  observation := "pending"
  notes := none
  referenceM := none
  body

def checkObservation : Field → Except String String
  | .text s =>
    if s = "failed" ∨ s = "tune" ∨ s = "good" then .ok s else .error "invalid observation"
  | _ => .error "invalid observation"

def checkNotes : Field → Except String String
  | .absent => .ok ""
  | .text s => if 500 < s.length then .error "invalid notes" else .ok s
  | _ => .error "invalid notes"

def checkReference : Option JsonValue → Except String (Option ℚ)
  | none => .ok none
  | some value =>
    match value.number with
    | none => .error "reference distance must be 0.01–10 m"
    | some reference =>
      if 1 / 100 ≤ reference ∧ reference ≤ 10 then .ok (some reference)
      else .error "reference distance must be 0.01–10 m"

/-- The rows of a review: those of the sequence, if it names one, or the result alone. -/
def reviewedRows (payload : ReviewPayload) (sequence : Bool) (result : StoredResult R) :
    Except String (StoredResult R → Bool) :=
  match payload.sequenceId with
  | .absent | .null => .ok fun r => r.id = result.id
  | .text batch =>
    if some batch ≠ result.sequenceId ∨ sequence then
      .error "finish the sequence before reviewing it"
    else if batch = "" then .ok fun r => r.id = result.id
    else .ok fun r => r.sequenceId = some batch
  | .other => .error "finish the sequence before reviewing it"

/-- The checks of `review_trial`. -/
def checkReview (s : Store R) (payload : ReviewPayload) (sequence : Bool) :
    Except String (Review R) := do
  let observation ← checkObservation payload.observation
  let notes ← checkNotes payload.notes
  let reference ← checkReference payload.referenceM
  match s.results.find? fun r => payload.id = .text r.id with
  | none => .error "unknown trial"
  | some result =>
    let rows ← reviewedRows payload sequence result
    let update (r : StoredResult R) : StoredResult R :=
      { r with
        observation, notes := some notes
        referenceM :=
          if r.id = result.id then reference.orElse fun _ => r.referenceM else r.referenceM }
    .ok { rows, update }

/-! ### Steps -/

/-- What an event puts on the queue. -/
def put (s : Store R) : Event R → List (StoredResult R)
  | .finished id date sequenceId body => [finishedResult id date sequenceId body]
  | .reviewed payload sequence =>
    match checkReview s payload sequence with
    | .ok review => (s.results.filter review.rows).map review.update
    | .error _ => []
  | _ => []

/-- What an event makes of the results in memory. -/
def nextResults (s : Store R) : Event R → List (StoredResult R)
  | .finished id date sequenceId body =>
    lastKept (s.results ++ [finishedResult id date sequenceId body])
  | .reviewed payload sequence =>
    match checkReview s payload sequence with
    | .ok review => s.results.map fun r => if review.rows r then review.update r else r
    | .error _ => s.results
  | _ => s.results

/-- `_write_results`, up to the next point where it can stop. -/
def writerStep (s : Store R) : Event R → Store R
  | .taken =>
    match s.writer, s.persist with
    | .waiting, r :: persist => { s with writer := .writing r, persist }
    | _, _ => s
  | .written =>
    match s.writer with
    | .writing r =>
      { s with writer := .replacing r, tmp := Function.update s.tmp r.id (some (.result r)) }
    | _ => s
  | .notWritten torn error =>
    match s.writer with
    | .writing r =>
      { s with
        writer := .waiting, storageError := some error
        tmp := if torn then Function.update s.tmp r.id (some .other) else s.tmp }
    | _ => s
  | .replaced =>
    match s.writer with
    | .replacing r =>
      match s.tmp r.id with
      | some file =>
        { s with
          writer := .waiting, json := s.json.insert r.id file
          tmp := Function.update s.tmp r.id none }
      | none => s
    | _ => s
  | .notReplaced error =>
    match s.writer with
    | .replacing _ => { s with writer := .waiting, storageError := some error }
    | _ => s
  | _ => s

/-- The process ends and a new one starts. -/
def restart (s : Store R) (torn : Bool) : Store R :=
  match s.writer with
  | .writing r => boot s.json (if torn then Function.update s.tmp r.id (some .other) else s.tmp)
  | _ => boot s.json s.tmp

def step (s : Store R) (e : Event R) : Store R :=
  match e with
  | .finished .. | .reviewed .. =>
    { s with results := nextResults s e, persist := s.persist ++ put s e }
  | .restarted torn => restart s torn
  | _ => writerStep s e

def storeMachine : Machine (Store R) (Event R) where
  step := step
  time _ := none

/-- What the events put on the queue, in order. -/
def log : Store R → List (Event R) → List (StoredResult R)
  | _, [] => []
  | s, e :: es => put s e ++ log (step s e) es

end Model

/-! ### What is on its way -/

section Defs

variable {R : Type}

def entry (r : StoredResult R) : String × File R := (r.id, .result r)

/-- Every file is a whole result under its own name. -/
def Wellnamed (json : OrderedDict String (File R)) : Prop := ∀ p ∈ json.items, ∃ r, p = entry r

def Writer.inHand : Writer R → List (StoredResult R)
  | .waiting => []
  | .writing r | .replacing r => [r]

/-- The results the writer still has to write, in order. -/
def Store.pending (s : Store R) : List (StoredResult R) := s.writer.inHand ++ s.persist

/-- The directory once they are written. -/
def Store.eventual (s : Store R) : OrderedDict String (File R) :=
  s.json.insertAll (s.pending.map entry)

def Event.Restarts : Event R → Prop
  | .restarted _ => True
  | _ => False

instance : (e : Event R) → Decidable e.Restarts
  | .restarted _ => .isTrue trivial
  | .finished .. | .reviewed .. | .taken | .written | .notWritten .. | .replaced
  | .notReplaced _ => .isFalse not_false

/-- A new trial's id is not that of an earlier one. -/
def Fresh (s : Store R) : Event R → Prop
  | .finished id .. => id ∉ s.eventual.keys
  | _ => True

instance (s : Store R) : (e : Event R) → Decidable (Fresh s e)
  | .finished id .. => inferInstanceAs (Decidable (id ∉ s.eventual.keys))
  | .restarted _ | .reviewed .. | .taken | .written | .notWritten .. | .replaced
  | .notReplaced _ => .isTrue trivial

/-- The files are whole, and so is the one that is to replace another. -/
structure Sound (s : Store R) : Prop where
  files : Wellnamed s.json
  replacing : ∀ r, s.writer = .replacing r → s.tmp r.id = some (.result r)

/-- What a step does to the files and to what is on its way to them. -/
inductive Effect (added : List (StoredResult R)) (s s' : Store R) : Prop
  | queued (pending : s'.pending = s.pending ++ added) (json : s'.json = s.json)
      (error : s'.storageError = s.storageError)
  | saved (r : StoredResult R) (added : added = []) (pending : s.pending = r :: s'.pending)
      (json : s'.json = s.json.insert r.id (.result r))
      (error : s'.storageError = s.storageError) (results : s'.results = s.results)
  | failed (r : StoredResult R) (added : added = []) (pending : s.pending = r :: s'.pending)
      (json : s'.json = s.json) (error : s'.storageError ≠ none)

/-- The directory is `base` with some of the results queued, in their order; if the account is
`lossless` and nothing has failed, the others are pending. -/
def Saved (lossless : Prop) (base : OrderedDict String (File R)) (queued : List (StoredResult R))
    (s : Store R) : Prop :=
  ∃ kept, (kept ++ s.pending).Sublist queued ∧ s.json = base.insertAll (kept.map entry) ∧
    (lossless → s.storageError = none → kept ++ s.pending = queued)

/-- The results are the directory's, and all of them if they are not too many. -/
structure Shown (files : OrderedDict String (File R)) (results : List (StoredResult R)) :
    Prop where
  nodup : (results.map StoredResult.id).Nodup
  known : ∀ r ∈ results, files.get? r.id = some (.result r)
  all : files.keys.length ≤ SerialLink.resultsKept →
    ∀ id ∈ files.keys, id ∈ results.map StoredResult.id

end Defs

variable {R : Type} {s s' : Store R} {e : Event R}

private theorem bind_ok {ε α β : Type} {x : Except ε α} {f : α → Except ε β} {b : β}
    (h : x >>= f = .ok b) : ∃ a, x = .ok a ∧ f a = .ok b := by
  cases x with
  | error e => cases h
  | ok a => exact ⟨a, rfl, h⟩

/-! ### One step -/

theorem Sound.boot {json : OrderedDict String (File R)} {tmp : String → Option (File R)}
    (h : Wellnamed json) : Sound (boot json tmp) where
  files := h
  replacing := by
    intro r hwriter
    cases hwriter

theorem restart_eq (s : Store R) (torn : Bool) : ∃ tmp, restart s torn = boot s.json tmp := by
  rw [restart]
  split
  · exact ⟨_, rfl⟩
  · exact ⟨_, rfl⟩

theorem Wellnamed.insertAll {json : OrderedDict String (File R)} (h : Wellnamed json)
    (l : List (StoredResult R)) : Wellnamed (json.insertAll (l.map entry)) := by
  refine OrderedDict.forall_mem_insertAll h fun p hp => ?_
  obtain ⟨r, -, rfl⟩ := List.mem_map.mp hp
  exact ⟨r, rfl⟩

/-- One writer event: nothing new, a file replaced, or a failure. -/
theorem writerStep_effect (h : Sound s) (hput : put s e = []) :
    Effect (put s e) s (writerStep s e) ∧ (writerStep s e).results = s.results := by
  rw [hput]
  have hidle : Effect [] s s := .queued (List.append_nil _).symm rfl rfl
  cases e with
  | finished id date sequenceId body => exact ⟨hidle, rfl⟩
  | reviewed payload sequence => exact ⟨hidle, rfl⟩
  | restarted torn => exact ⟨hidle, rfl⟩
  | taken =>
    simp only [writerStep]
    split
    next r persist hwriter hpersist =>
      refine ⟨.queued ?_ rfl rfl, rfl⟩
      simp [Store.pending, Writer.inHand, hwriter, hpersist]
    next => exact ⟨hidle, rfl⟩
  | written =>
    simp only [writerStep]
    split
    next r hwriter =>
      refine ⟨.queued ?_ rfl rfl, rfl⟩
      simp [Store.pending, Writer.inHand, hwriter]
    next => exact ⟨hidle, rfl⟩
  | notWritten torn error =>
    simp only [writerStep]
    split
    next r hwriter =>
      refine ⟨.failed r rfl ?_ rfl (by simp), rfl⟩
      simp [Store.pending, Writer.inHand, hwriter]
    next => exact ⟨hidle, rfl⟩
  | replaced =>
    simp only [writerStep]
    split
    next r hwriter =>
      rw [h.replacing r hwriter]
      refine ⟨.saved r rfl ?_ rfl rfl rfl, rfl⟩
      simp [Store.pending, Writer.inHand, hwriter]
    next => exact ⟨hidle, rfl⟩
  | notReplaced error =>
    simp only [writerStep]
    split
    next r hwriter =>
      refine ⟨.failed r rfl ?_ rfl (by simp), rfl⟩
      simp [Store.pending, Writer.inHand, hwriter]
    next => exact ⟨hidle, rfl⟩

theorem step_effect (h : Sound s) (hlive : ¬e.Restarts) :
    Effect (put s e) s (step s e) ∧ (step s e).results = nextResults s e := by
  have hqueued : ∀ results added, Effect added s
      { s with results, persist := s.persist ++ added } := by
    intro results added
    refine .queued ?_ rfl rfl
    simp [Store.pending]
  cases e with
  | finished id date sequenceId body => exact ⟨hqueued _ _, rfl⟩
  | reviewed payload sequence => exact ⟨hqueued _ _, rfl⟩
  | restarted torn => exact absurd trivial hlive
  | taken => exact writerStep_effect h rfl
  | written => exact writerStep_effect h rfl
  | notWritten torn error => exact writerStep_effect h rfl
  | replaced => exact writerStep_effect h rfl
  | notReplaced error => exact writerStep_effect h rfl

/-- The temporary file is whole before it replaces another. -/
theorem writerStep_replacing (h : Sound s) {r : StoredResult R}
    (hwriter : (writerStep s e).writer = .replacing r) :
    (writerStep s e).tmp r.id = some (.result r) := by
  have hkept : s.writer = .replacing r → s.tmp r.id = some (.result r) := h.replacing r
  cases e with
  | finished id date sequenceId body => exact hkept hwriter
  | reviewed payload sequence => exact hkept hwriter
  | restarted torn => exact hkept hwriter
  | taken =>
    simp only [writerStep] at hwriter ⊢
    split at hwriter
    · cases hwriter
    · exact hkept hwriter
  | written =>
    simp only [writerStep] at hwriter ⊢
    split at hwriter
    next r' hwriting =>
      cases hwriter
      simp
    next => exact hkept hwriter
  | notWritten torn error =>
    simp only [writerStep] at hwriter ⊢
    split at hwriter
    · cases hwriter
    · exact hkept hwriter
  | replaced =>
    simp only [writerStep] at hwriter ⊢
    split at hwriter
    next r' hreplacing =>
      rw [h.replacing r' hreplacing] at hwriter
      cases hwriter
    next => exact hkept hwriter
  | notReplaced error =>
    simp only [writerStep] at hwriter ⊢
    split at hwriter
    · cases hwriter
    · exact hkept hwriter

theorem Effect.wellnamed {added : List (StoredResult R)} (h : Effect added s s')
    (hfiles : Wellnamed s.json) : Wellnamed s'.json := by
  cases h with
  | queued _ hjson => exact hjson ▸ hfiles
  | failed _ _ _ hjson => exact hjson ▸ hfiles
  | saved r _ _ hjson =>
    rw [hjson]
    exact hfiles.insertAll [r]

theorem Sound.step (h : Sound s) (e : Event R) : Sound (step s e) := by
  by_cases hlive : e.Restarts
  · cases e with
    | restarted torn =>
      obtain ⟨tmp, hboot⟩ := restart_eq s torn
      rw [ResultStore.step, hboot]
      exact .boot h.files
    | _ => exact absurd hlive id
  · refine ⟨(step_effect h hlive).1.wellnamed h.files, ?_⟩
    intro r hwriter
    cases e with
    | finished id date sequenceId body => exact h.replacing r hwriter
    | reviewed payload sequence => exact h.replacing r hwriter
    | restarted torn => exact absurd trivial hlive
    | taken => exact writerStep_replacing h hwriter
    | written => exact writerStep_replacing h hwriter
    | notWritten torn error => exact writerStep_replacing h hwriter
    | replaced => exact writerStep_replacing h hwriter
    | notReplaced error => exact writerStep_replacing h hwriter

theorem Sound.run (h : Sound s) (es : List (Event R)) : Sound (storeMachine.run s es) :=
  Machine.run_invariant (fun _ e h => h.step e) h

/-! ### What is saved -/

theorem Saved.effect {lossless : Prop} {base : OrderedDict String (File R)}
    {queued added : List (StoredResult R)} (h : Saved lossless base queued s)
    (heffect : Effect added s s') : Saved lossless base (queued ++ added) s' := by
  obtain ⟨kept, hkept, hjson, hexact⟩ := h
  cases heffect with
  | queued hpending hjson' herror =>
    refine ⟨kept, ?_, hjson'.trans hjson, fun hex herr => ?_⟩
    · rw [hpending, ← List.append_assoc]
      exact hkept.append (List.Sublist.refl added)
    · rw [hpending, ← List.append_assoc, hexact hex (herror ▸ herr)]
  | saved r hadded hpending hjson' herror =>
    -- the first of those on their way has arrived
    have hmoved : (kept ++ [r]) ++ s'.pending = kept ++ s.pending := by
      rw [hpending, List.append_assoc, List.singleton_append]
    rw [hadded, List.append_nil]
    refine ⟨kept ++ [r], hmoved ▸ hkept, ?_, fun hex herr => ?_⟩
    · rw [hjson', hjson, List.map_append, OrderedDict.insertAll_append]
      rfl
    · rw [hmoved, hexact hex (herror ▸ herr)]
  | failed r hadded hpending hjson' herror =>
    rw [hadded, List.append_nil]
    refine ⟨kept, ?_, hjson'.trans hjson, fun _ herr => absurd herr herror⟩
    rw [hpending] at hkept
    exact (List.Sublist.append_left (List.sublist_cons_self _ _) kept).trans hkept

theorem Saved.restart {base : OrderedDict String (File R)} {queued : List (StoredResult R)}
    (h : Saved False base queued s) (torn : Bool) : Saved False base queued (restart s torn) := by
  obtain ⟨kept, hkept, hjson, -⟩ := h
  obtain ⟨tmp, hboot⟩ := restart_eq s torn
  rw [hboot]
  refine ⟨kept, ?_, hjson, fun h => h.elim⟩
  -- what was on its way is lost
  have hnone : (boot s.json tmp).pending = [] := rfl
  rw [hnone, List.append_nil]
  exact (List.sublist_append_left _ _).trans hkept

/-- The run of one process. -/
theorem Saved.live {lossless : Prop} {base : OrderedDict String (File R)}
    {queued : List (StoredResult R)} (h : Saved lossless base queued s) (hs : Sound s)
    {es : List (Event R)} (hlive : ∀ e ∈ es, ¬e.Restarts) :
    Saved lossless base (queued ++ log s es) (storeMachine.run s es) := by
  induction es generalizing s queued with
  | nil =>
    rw [log, List.append_nil]
    exact h
  | cons e es ih =>
    have heffect := (step_effect hs (hlive e List.mem_cons_self)).1
    have hrest := ih (h.effect heffect) (hs.step e) fun e he => hlive e (List.mem_cons_of_mem _ he)
    rw [log, ← List.append_assoc]
    exact hrest

/-- Any run, through the restarts. -/
theorem Saved.run {base : OrderedDict String (File R)} {queued : List (StoredResult R)}
    (h : Saved False base queued s) (hs : Sound s) (es : List (Event R)) :
    Saved False base (queued ++ log s es) (storeMachine.run s es) := by
  induction es generalizing s queued with
  | nil =>
    rw [log, List.append_nil]
    exact h
  | cons e es ih =>
    have hnext : Saved False base (queued ++ put s e) (step s e) := by
      by_cases hlive : e.Restarts
      · cases e with
        | restarted torn =>
          have hput : put s (.restarted torn) = [] := rfl
          rw [hput, List.append_nil]
          exact h.restart torn
        | _ => exact absurd hlive id
      · exact h.effect (step_effect hs hlive).1
    have hrest := ih hnext (hs.step e)
    rw [log, ← List.append_assoc]
    exact hrest

/-- **The directory is consistent wherever the process ends.**  At every point of a run, with
any number of restarts in it, every file is a whole result under its name, and the directory
is the first one brought up to date by some of what went on the queue, in its order: no file
falls back to an older version.  Within a process in which no write has failed, nothing is
passed over: what was on its way and what came on the queue is saved, or still to be written. -/
theorem crash_consistent (base : OrderedDict String (File R)) (tmp : String → Option (File R))
    (before after : List (Event R)) (hbase : Wellnamed base)
    (hlive : ∀ e ∈ after, ¬e.Restarts) :
    let middle := storeMachine.run (boot base tmp) before
    let last := storeMachine.run middle after
    Wellnamed last.json ∧
      (∃ kept : List (StoredResult R), kept.Sublist (log (boot base tmp) (before ++ after)) ∧
        last.json = base.insertAll (kept.map entry)) ∧
      (last.storageError = none →
        ∃ saved : List (StoredResult R),
          saved ++ last.pending = middle.pending ++ log middle after ∧
          last.json = middle.json.insertAll (saved.map entry)) := by
  intro middle last
  have hboot : Sound (boot base tmp) := .boot hbase
  have hmiddle : Sound middle := hboot.run before
  refine ⟨(hmiddle.run after).files, ?_, ?_⟩
  · have hstart : Saved False base [] (boot base tmp) := by
      exact ⟨[], List.Sublist.refl _, rfl, fun h => h.elim⟩
    obtain ⟨kept, hkept, hjson, -⟩ := hstart.run hboot (before ++ after)
    rw [Machine.run_append] at hkept hjson
    exact ⟨kept, (List.sublist_append_left _ _).trans hkept, hjson⟩
  · intro herror
    have hstart : Saved True middle.json middle.pending middle := by
      exact ⟨[], List.Sublist.refl _, rfl, fun _ _ => rfl⟩
    obtain ⟨saved, -, hjson, hexact⟩ := hstart.live hmiddle hlive
    exact ⟨saved, hexact trivial herror, hjson⟩

/-! A trial is saved and another one not, the process ends, and a review of the first one is on
its way when the run is over. -/

def goodReview (id : String) : ReviewPayload where
  id := .text id
  sequenceId := .absent
  observation := .text "good"
  notes := .absent
  referenceM := some (.int 2)

def sampleBefore : List (Event ℕ) :=
  [.finished "a" "10:00" none 1, .taken, .written, .replaced, .finished "b" "10:05" none 2, .taken,
    .restarted true]

def sampleAfter : List (Event ℕ) := [.reviewed (goodReview "a") false, .taken, .written]

theorem crash_consistent_sample :
    let middle := storeMachine.run (boot .empty fun _ => none) sampleBefore
    let last := storeMachine.run middle sampleAfter
    last.storageError = none ∧ last.json.keys = ["a"] ∧
      ∃ saved : List (StoredResult ℕ),
        saved ++ last.pending = middle.pending ++ log middle sampleAfter ∧
        last.json = middle.json.insertAll (saved.map entry) :=
  ⟨by decide +kernel, by decide +kernel,
    (crash_consistent .empty (fun _ => none) sampleBefore sampleAfter
      (fun _ h => absurd h List.not_mem_nil) (by decide)).2.2 (by decide +kernel)⟩

/-! ### What is shown -/

theorem ids_accepted {items : List (String × File R)} (h : ∀ p ∈ items, ∃ r, p = entry r) :
    (((items.map Prod.snd).filterMap accepted).map StoredResult.id) = items.map Prod.fst := by
  induction items with
  | nil => rfl
  | cons p items ih =>
    obtain ⟨r, rfl⟩ := h p List.mem_cons_self
    have hrest := ih fun q hq => h q (List.mem_cons_of_mem _ hq)
    simpa [entry, accepted] using hrest

theorem mem_accepted {items : List (String × File R)} (h : ∀ p ∈ items, ∃ r, p = entry r)
    {r : StoredResult R} : r ∈ (items.map Prod.snd).filterMap accepted ↔ entry r ∈ items := by
  induction items with
  | nil => simp
  | cons p items ih =>
    obtain ⟨r', rfl⟩ := h p List.mem_cons_self
    have hrest := ih fun q hq => h q (List.mem_cons_of_mem _ hq)
    have hentry : entry r = entry r' ↔ r = r' := by simp +contextual [entry]
    rw [List.map_cons, List.mem_cons, hentry, ← hrest]
    simp [entry, accepted]

/-- A new process shows what is in the directory. -/
theorem Shown.load {json : OrderedDict String (File R)} (h : Wellnamed json) :
    Shown json (load json) := by
  set names := json.items.mergeSort fun p q => p.1 ++ ".json" ≤ q.1 ++ ".json" with hnames
  set last := names.drop (names.length - SerialLink.resultsKept) with hlast
  have hperm : names.Perm json.items := List.mergeSort_perm _ _
  have hsub : last.Sublist names := List.drop_sublist _ _
  have hentries : ∀ p ∈ last, ∃ r, p = entry r :=
    fun p hp => h p (hperm.subset (hsub.subset hp))
  have hload : (ResultStore.load json).Perm ((last.map Prod.snd).filterMap accepted) :=
    List.mergeSort_perm _ _
  have hids : ((ResultStore.load json).map StoredResult.id).Perm (last.map Prod.fst) := by
    rw [← ids_accepted hentries]
    exact hload.map _
  refine ⟨?_, ?_, ?_⟩
  · rw [hids.nodup_iff]
    have hnodup : (names.map Prod.fst).Nodup := (hperm.map _).nodup_iff.mpr json.nodup
    exact hnodup.sublist (hsub.map _)
  · intro r hr
    have hmem : entry r ∈ last := (mem_accepted hentries).mp (hload.subset hr)
    exact OrderedDict.get?_eq_some_iff.mpr (hperm.subset (hsub.subset hmem))
  · intro hfew id hid
    -- none is left out
    have hlength : names.length ≤ SerialLink.resultsKept := by
      rw [hperm.length_eq]
      simpa [OrderedDict.keys] using hfew
    have hall : last = names := by
      rw [hlast, Nat.sub_eq_zero_of_le hlength, List.drop_zero]
    rw [hids.mem_iff, hall, (hperm.map _).mem_iff]
    exact hid

theorem Shown.length_le {files : OrderedDict String (File R)} {results : List (StoredResult R)}
    (h : Shown files results) : results.length ≤ files.keys.length := by
  have hsub : results.map StoredResult.id ⊆ files.keys := by
    intro id hid
    obtain ⟨r, hr, rfl⟩ := List.mem_map.mp hid
    exact OrderedDict.mem_keys_of_get? (h.known r hr)
  have hle := (h.nodup.subperm hsub).length_le
  simpa using hle

/-- A trial finishes. -/
theorem Shown.finished {files : OrderedDict String (File R)} {results : List (StoredResult R)}
    (h : Shown files results) {r : StoredResult R} (hfresh : r.id ∉ files.keys) :
    Shown (files.insert r.id (.result r)) (lastKept (results ++ [r])) := by
  have hsub : (lastKept (results ++ [r])).Sublist (results ++ [r]) := List.drop_sublist _ _
  have hunknown : ∀ r' ∈ results, r'.id ≠ r.id := by
    intro r' hr' heq
    exact hfresh (heq ▸ OrderedDict.mem_keys_of_get? (h.known r' hr'))
  have hkeys : (files.insert r.id (.result r)).keys = files.keys ++ [r.id] := by
    rw [OrderedDict.keys_insert, if_neg hfresh]
  refine ⟨?_, ?_, ?_⟩
  · have hnodup : ((results ++ [r]).map StoredResult.id).Nodup := by
      rw [List.map_append, List.nodup_append]
      refine ⟨h.nodup, List.nodup_singleton _, ?_⟩
      intro id hid id' hid' heq
      obtain ⟨r', hr', rfl⟩ := List.mem_map.mp hid
      exact hunknown r' hr' (heq.trans (by simpa using hid'))
    exact hnodup.sublist (hsub.map _)
  · intro r' hr'
    rw [OrderedDict.get?_insert]
    rcases List.mem_append.mp (hsub.subset hr') with hr' | hr'
    · rw [if_neg (hunknown r' hr'), h.known r' hr']
    · rw [List.mem_singleton.mp hr', if_pos rfl]
  · intro hfew id hid
    rw [hkeys, List.length_append, List.length_singleton] at hfew
    -- they all stay in memory
    have hlength : (results ++ [r]).length ≤ SerialLink.resultsKept := by
      have hle := h.length_le
      rw [List.length_append, List.length_singleton]
      omega
    have hall : lastKept (results ++ [r]) = results ++ [r] := by
      rw [lastKept, Nat.sub_eq_zero_of_le hlength, List.drop_zero]
    rw [hall, List.map_append, List.mem_append]
    rw [hkeys, List.mem_append] at hid
    exact hid.imp (h.all (by omega) id) fun hid => by simpa using hid

/-- A review changes rows. -/
theorem Shown.reviewed {files : OrderedDict String (File R)} {results : List (StoredResult R)}
    (h : Shown files results) {review : Review R}
    (hid : ∀ r, (review.update r).id = r.id) :
    Shown (files.insertAll (((results.filter review.rows).map review.update).map entry))
      (results.map fun r => if review.rows r then review.update r else r) := by
  set rows := results.filter review.rows with hrows
  have hids : (results.map fun r => if review.rows r then review.update r else r).map
      StoredResult.id = results.map StoredResult.id := by
    rw [List.map_map]
    refine List.map_congr_left fun r _ => ?_
    by_cases hr : review.rows r
    · simp [hr, hid]
    · simp [hr]
  have hentries : ((rows.map review.update).map entry).map Prod.fst =
      rows.map StoredResult.id := by
    simp [entry, Function.comp_def, hid]
  have hnodup : (rows.map StoredResult.id).Nodup := h.nodup.sublist (List.filter_sublist.map _)
  have hkeys : (files.insertAll ((rows.map review.update).map entry)).keys = files.keys := by
    refine OrderedDict.keys_insertAll_of_subset fun p hp => ?_
    have hp' : p.1 ∈ rows.map StoredResult.id := hentries ▸ List.mem_map_of_mem hp
    obtain ⟨r, hr, hpr⟩ := List.mem_map.mp hp'
    exact hpr ▸ OrderedDict.mem_keys_of_get? (h.known r (List.mem_of_mem_filter hr))
  refine ⟨by rw [hids]; exact h.nodup, ?_, ?_⟩
  · intro r' hr'
    obtain ⟨r, hr, rfl⟩ := List.mem_map.mp hr'
    by_cases hrow : review.rows r
    · -- its file is one of those to be written
      rw [if_pos hrow]
      refine OrderedDict.get?_insertAll_of_mem (hentries ▸ hnodup) ?_
      have hmem : r ∈ rows := List.mem_filter.mpr ⟨hr, hrow⟩
      exact List.mem_map_of_mem (List.mem_map_of_mem hmem)
    · rw [if_neg hrow, OrderedDict.get?_insertAll_of_notMem, h.known r hr]
      rw [hentries]
      intro hmem
      obtain ⟨r', hr', heq⟩ := List.mem_map.mp hmem
      obtain ⟨hr', hrow'⟩ := List.mem_filter.mp hr'
      -- the ids are distinct
      have hsame : r' = r := List.inj_on_of_nodup_map h.nodup hr' hr heq
      exact hrow (hsame ▸ hrow')
  · intro hfew id hmem
    rw [hkeys] at hfew hmem
    rw [hids]
    exact h.all hfew id hmem

theorem checkReview_id {payload : ReviewPayload} {sequence : Bool} {review : Review R}
    (h : checkReview s payload sequence = .ok review) (r : StoredResult R) :
    (review.update r).id = r.id := by
  rw [checkReview] at h
  obtain ⟨observation, -, h⟩ := bind_ok h
  obtain ⟨notes, -, h⟩ := bind_ok h
  obtain ⟨reference, -, h⟩ := bind_ok h
  split at h
  · cases h
  · obtain ⟨rows, -, h⟩ := bind_ok h
    cases h
    rfl

theorem Shown.next (h : Shown s.eventual s.results) (hfresh : Fresh s e) :
    Shown (s.eventual.insertAll ((put s e).map entry)) (nextResults s e) := by
  cases e with
  | finished id date sequenceId body => exact h.finished hfresh
  | reviewed payload sequence =>
    simp only [put, nextResults]
    cases hreview : checkReview s payload sequence with
    | ok review => exact h.reviewed (checkReview_id hreview)
    | error _ => exact h
  | _ => exact h

theorem Effect.eventual (h : Effect (put s e) s s') (herror : s'.storageError = none) :
    s.storageError = none ∧ s'.eventual = s.eventual.insertAll ((put s e).map entry) := by
  cases h with
  | queued hpending hjson herror' =>
    refine ⟨herror' ▸ herror, ?_⟩
    rw [Store.eventual, Store.eventual, hpending, hjson, List.map_append,
      OrderedDict.insertAll_append]
  | saved r hadded hpending hjson herror' =>
    refine ⟨herror' ▸ herror, ?_⟩
    rw [hadded, Store.eventual, Store.eventual, hpending, hjson]
    rfl
  | failed _ _ _ _ herror' => exact absurd herror herror'

/-- As long as no write has failed, what is shown is what the directory will hold. -/
theorem shown_run {es : List (Event R)} (hs : Sound s)
    (h : s.storageError = none → Shown s.eventual s.results)
    (hfresh : storeMachine.Always Fresh s es) :
    (storeMachine.run s es).storageError = none →
      Shown (storeMachine.run s es).eventual (storeMachine.run s es).results := by
  have hboth := Machine.run_of_guarded (M := storeMachine) (G := Fresh)
    (I := fun s : Store R => Sound s ∧ (s.storageError = none → Shown s.eventual s.results))
    (fun s e hI hG => by
      refine ⟨hI.1.step e, fun herror => ?_⟩
      have herror' : (step s e).storageError = none := herror
      show Shown (step s e).eventual (step s e).results
      by_cases hlive : e.Restarts
      · cases e with
        | restarted torn =>
          obtain ⟨tmp, hboot⟩ := restart_eq s torn
          rw [ResultStore.step, hboot]
          exact .load hI.1.files
        | _ => exact absurd hlive id
      · obtain ⟨heffect, hresults⟩ := step_effect hI.1 hlive
        obtain ⟨hbefore, heventual⟩ := heffect.eventual herror'
        rw [heventual, hresults]
        exact (hI.2 hbefore).next hG) ⟨hs, h⟩ hfresh
  exact hboth.2

/-- **A new process shows what the old one did.**  While no write has failed and there are no
more results than are kept, a process that starts where another ends shows the same results,
except those that were still on their way to the directory.  They come in the order of their
dates. -/
theorem restart_restores (base : OrderedDict String (File R)) (tmp : String → Option (File R))
    (es : List (Event R)) (torn : Bool) (hbase : Wellnamed base)
    (hfresh : storeMachine.Always Fresh (boot base tmp) es) :
    let s := storeMachine.run (boot base tmp) es
    let restored := (step s (.restarted torn)).results
    let written (r : StoredResult R) : Bool := r.id ∉ s.pending.map StoredResult.id
    s.storageError = none → s.eventual.keys.length ≤ SerialLink.resultsKept →
      restored.Pairwise (fun r r' => r.date ≤ r'.date) ∧
        (restored.filter written).Perm (s.results.filter written) := by
  intro s restored written herror hfew
  have hs : Sound s := (Sound.boot hbase).run es
  have hshown : Shown s.eventual s.results :=
    shown_run (Sound.boot hbase) (fun _ => .load hbase) hfresh herror
  have hload : restored = load s.json := by
    obtain ⟨tmp', hboot⟩ := restart_eq s torn
    show (restart s torn).results = _
    rw [hboot]
    rfl
  have hloaded : Shown s.json restored := hload ▸ .load hs.files
  refine ⟨?_, ?_⟩
  · rw [hload, load]
    refine (List.pairwise_mergeSort (fun a b c hab hbc => ?_) (fun a b => ?_) _).imp fun h => ?_
    · rw [decide_eq_true_eq] at hab hbc ⊢
      exact hab.trans hbc
    · rw [Bool.or_eq_true, decide_eq_true_eq, decide_eq_true_eq]
      exact le_total a.date b.date
    · rwa [decide_eq_true_eq] at h
  · -- distinct results on both sides, and the same ones
    refine (List.perm_ext_iff_of_nodup (hloaded.nodup.of_map _ |>.filter _)
      (hshown.nodup.of_map _ |>.filter _)).mpr fun r => ?_
    rw [List.mem_filter, List.mem_filter]
    refine and_congr_left fun hwritten => ?_
    have hsame : s.eventual.get? r.id = s.json.get? r.id := by
      refine OrderedDict.get?_insertAll_of_notMem ?_
      simpa [written, entry, Function.comp_def] using hwritten
    -- there are even fewer files now
    have hless : s.json.keys.length ≤ SerialLink.resultsKept :=
      (OrderedDict.keys_prefix_insertAll s.json _).length_le.trans hfew
    have hiff : ∀ {files : OrderedDict String (File R)} {results : List (StoredResult R)},
        Shown files results → files.keys.length ≤ SerialLink.resultsKept →
        (r ∈ results ↔ files.get? r.id = some (.result r)) := by
      intro files results h hfew
      refine ⟨h.known r, fun hget => ?_⟩
      obtain ⟨r', hr', hid⟩ := List.mem_map.mp (h.all hfew _ (OrderedDict.mem_keys_of_get? hget))
      have hget' := h.known r' hr'
      rw [hid, hget] at hget'
      cases hget'
      exact hr'
    rw [hiff hloaded hless, hiff hshown hfew, hsame]

/-- A review has been saved, and the next trial has not. -/
def sampleRun : List (Event ℕ) :=
  [.finished "a" "10:00" none 1, .taken, .written, .replaced, .reviewed (goodReview "a") false,
    .taken, .written, .replaced, .finished "b" "10:05" none 2, .taken]

theorem restart_restores_sample :
    let s := storeMachine.run (boot .empty fun _ => none) sampleRun
    let restored := (step s (.restarted true)).results
    let written (r : StoredResult ℕ) : Bool := r.id ∉ s.pending.map StoredResult.id
    (s.results.filter written).map StoredResult.observation = ["good"] ∧
      (restored.filter written).Perm (s.results.filter written) :=
  ⟨by decide +kernel,
    (restart_restores .empty (fun _ => none) sampleRun true
      (fun _ h => absurd h List.not_mem_nil) (by decide +kernel) (by decide +kernel)
      (by rw [SerialLink.resultsKept]; decide +kernel)).2⟩

end ResultStore
