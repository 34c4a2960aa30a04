/-
Lines in a stream that arrives in pieces.

A reader looks at every complete line it has until one of them says something.  What it has
read of the next line it keeps.

* `feed_append` — it does not matter in which pieces the stream arrives;
* `feed_eq` — the reader finds the first line that says something, and keeps all after it;
* `splitLines_joinLines` — a stream has one division into lines.
-/
import Mathlib

namespace LineFraming

variable {α ρ : Type*} [DecidableEq α] (sep : α) (judge : List α → Option ρ)

/-! ### Lines -/

/-- The complete lines, and the incomplete one, of `line` and the stream after it. -/
def splitLines (line : List α) : List α → List (List α) × List α
  | [] => ([], line)
  | a :: stream =>
    if a = sep then (line :: (splitLines [] stream).1, (splitLines [] stream).2)
    else splitLines (line ++ [a]) stream

/-- Complete lines, and the beginning of another. -/
def joinLines (lines : List (List α)) (rest : List α) : List α :=
  lines.flatMap (fun line => line ++ [sep]) ++ rest

variable {sep} in
theorem splitLines_append_of_notMem {word : List α} (h : sep ∉ word) (line stream : List α) :
    splitLines sep line (word ++ stream) = splitLines sep (line ++ word) stream := by
  induction word generalizing line with
  | nil => rw [List.nil_append, List.append_nil]
  | cons a word ih =>
    rw [List.mem_cons, not_or] at h
    rw [List.cons_append, splitLines, if_neg fun ha => h.1 ha.symm, ih h.2, List.append_assoc]
    rfl

variable {sep} in
/-- A stream has one division into lines. -/
theorem splitLines_joinLines {lines : List (List α)} {rest : List α}
    (hlines : ∀ line ∈ lines, sep ∉ line) (hrest : sep ∉ rest) :
    splitLines sep [] (joinLines sep lines rest) = (lines, rest) := by
  induction lines with
  | nil =>
    have hword := splitLines_append_of_notMem hrest [] []
    rw [List.append_nil] at hword
    exact hword
  | cons line lines ih =>
    have hjoin : joinLines sep (line :: lines) rest =
        line ++ sep :: joinLines sep lines rest := by
      simp [joinLines]
    rw [hjoin, splitLines_append_of_notMem (hlines line (by simp)), List.nil_append, splitLines,
      if_pos rfl, ih fun l hl => hlines l (List.mem_cons_of_mem _ hl)]

/-- The lines of two streams, one after the other. -/
theorem splitLines_append (line stream more : List α) :
    splitLines sep line (stream ++ more) =
      ((splitLines sep line stream).1 ++ (splitLines sep (splitLines sep line stream).2 more).1,
        (splitLines sep (splitLines sep line stream).2 more).2) := by
  induction stream generalizing line with
  | nil => rfl
  | cons a stream ih =>
    rw [List.cons_append, splitLines, splitLines]
    by_cases ha : a = sep
    · rw [if_pos ha, if_pos ha, ih]
      rfl
    · rw [if_neg ha, if_neg ha]
      exact ih _

/-- No line, complete or not, is longer than `bound`. -/
def LinesWithin (bound : ℕ) (line stream : List α) : Prop :=
  (∀ l ∈ (splitLines sep line stream).1, l.length ≤ bound) ∧
    (splitLines sep line stream).2.length ≤ bound

instance (bound : ℕ) (line stream : List α) : Decidable (LinesWithin sep bound line stream) :=
  inferInstanceAs (Decidable (_ ∧ _))

variable {sep} in
theorem LinesWithin.length_le {bound : ℕ} {line stream : List α}
    (h : LinesWithin sep bound line stream) : line.length ≤ bound := by
  induction stream generalizing line with
  | nil => exact h.2
  | cons a stream ih =>
    rw [LinesWithin, splitLines] at h
    by_cases ha : a = sep
    · rw [if_pos ha] at h
      exact h.1 line (by simp)
    · rw [if_neg ha] at h
      have hmore := ih h
      rw [List.length_append] at hmore
      omega

/-- The lines of a stream make it up, and hold no separator. -/
theorem splitLines_spec {line : List α} (hline : sep ∉ line) (stream : List α) :
    joinLines sep (splitLines sep line stream).1 (splitLines sep line stream).2 =
        line ++ stream ∧
      (∀ l ∈ (splitLines sep line stream).1, sep ∉ l) ∧
      sep ∉ (splitLines sep line stream).2 := by
  induction stream generalizing line with
  | nil => exact ⟨by simp [joinLines, splitLines], by simp [splitLines], hline⟩
  | cons a stream ih =>
    rw [splitLines]
    by_cases ha : a = sep
    · rw [if_pos ha]
      have hempty : sep ∉ ([] : List α) := List.not_mem_nil
      obtain ⟨hjoin, hlines, hrest⟩ := ih hempty
      refine ⟨?_, ?_, hrest⟩
      · simp only [joinLines, List.flatMap_cons, List.append_assoc] at hjoin ⊢
        rw [hjoin, ha]
        simp
      · intro l hl
        rcases List.mem_cons.mp hl with rfl | hl
        · exact hline
        · exact hlines l hl
    · rw [if_neg ha]
      have hmore : sep ∉ line ++ [a] := by
        rw [List.mem_append, List.mem_singleton, not_or]
        exact ⟨hline, fun h => ha h.symm⟩
      obtain ⟨hjoin, hlines, hrest⟩ := ih hmore
      refine ⟨?_, hlines, hrest⟩
      rw [hjoin]
      simp

/-! ### The reader -/

/-- What the reader finds in `line` and the stream after it, and what it has left. -/
def feed (line : List α) : List α → Option ρ × List α
  | [] => (none, line)
  | a :: stream =>
    if a = sep then
      match judge line with
      | some r => (some r, stream)
      | none => feed [] stream
    else feed (line ++ [a]) stream

/-- The first line that says something, and the lines after it. -/
def firstOf : List (List α) → Option (ρ × List (List α))
  | [] => none
  | line :: lines =>
    match judge line with
    | some r => some (r, lines)
    | none => firstOf lines

/-- **It does not matter in which pieces the stream arrives.** -/
theorem feed_append (line stream more : List α) :
    feed sep judge line (stream ++ more) =
      match feed sep judge line stream with
      | (some r, left) => (some r, left ++ more)
      | (none, left) => feed sep judge left more := by
  induction stream generalizing line with
  | nil => rfl
  | cons a stream ih =>
    rw [List.cons_append, feed, feed]
    by_cases ha : a = sep
    · rw [if_pos ha, if_pos ha]
      cases judge line with
      | some r => rfl
      | none => exact ih []
    · rw [if_neg ha, if_neg ha]
      exact ih _

variable {sep} in
/-- What has been read of a line is part of the stream. -/
theorem feed_of_notMem {line : List α} (h : sep ∉ line) (stream : List α) :
    feed sep judge [] (line ++ stream) = feed sep judge line stream := by
  have hword (word before : List α) (hword : sep ∉ word) :
      feed sep judge before (word ++ stream) = feed sep judge (before ++ word) stream := by
    induction word generalizing before with
    | nil => rw [List.nil_append, List.append_nil]
    | cons a word ih =>
      rw [List.mem_cons, not_or] at hword
      rw [List.cons_append, feed, if_neg fun ha => hword.1 ha.symm, ih _ hword.2,
        List.append_assoc]
      rfl
  exact hword line [] h

omit [DecidableEq α] in
variable {judge} in
/-- The lines after the one found are the end of the lines. -/
theorem firstOf_suffix {lines left : List (List α)} {r : ρ}
    (h : firstOf judge lines = some (r, left)) : ∃ taken, lines = taken ++ left := by
  induction lines with
  | nil => cases h
  | cons line lines ih =>
    rw [firstOf] at h
    cases hjudge : judge line with
    | some r' =>
      rw [hjudge] at h
      obtain ⟨-, rfl⟩ := Prod.mk.inj (Option.some.inj h)
      exact ⟨[line], rfl⟩
    | none =>
      rw [hjudge] at h
      obtain ⟨taken, htaken⟩ := ih h
      exact ⟨line :: taken, by rw [htaken]; rfl⟩

/-- **The reader finds the first line that says something.** -/
theorem feed_eq (line stream : List α) :
    feed sep judge line stream =
      match firstOf judge (splitLines sep line stream).1 with
      | some (r, lines) => (some r, joinLines sep lines (splitLines sep line stream).2)
      | none => (none, (splitLines sep line stream).2) := by
  induction stream generalizing line with
  | nil => rfl
  | cons a stream ih =>
    rw [feed, splitLines]
    by_cases ha : a = sep
    · rw [if_pos ha, if_pos ha, firstOf]
      cases judge line with
      | some r =>
        have hempty : sep ∉ ([] : List α) := List.not_mem_nil
        have hjoin := (splitLines_spec sep hempty stream).1
        rw [List.nil_append] at hjoin
        dsimp only
        rw [hjoin]
      | none => exact ih []
    · rw [if_neg ha, if_neg ha]
      exact ih _

variable {sep judge} in
/-- When nothing has been found, what is left is the beginning of a line. -/
theorem splitLines_of_feed {line stream left : List α}
    (h : feed sep judge line stream = (none, left)) : (splitLines sep line stream).2 = left := by
  rw [feed_eq] at h
  cases hfirst : firstOf judge (splitLines sep line stream).1 with
  | none =>
    rw [hfirst] at h
    exact (Prod.mk.inj h).2
  | some out =>
    rw [hfirst] at h
    cases h

end LineFraming
