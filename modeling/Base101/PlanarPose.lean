/-
Poses in the plane, moved along arcs.

An arc is a distance and a turn; a pose moves along the chord at its heading in the
middle of the turn.  Headings are angles, so a whole turn is none.

* `moves_origin` — from the origin, a list of arcs leads to the sum of its chords, each
  at the sum of the turns before it and half its own;
* `moves_back` — a list of arcs, then the same arcs reversed in the reverse order, leads
  back to the start.
-/
import Base101.Double

open Real

/-- A distance and a turn. -/
@[ext] structure Arc where
  distance : ℝ
  turn : ℝ

/-- A position and a heading. -/
@[ext] structure PlanarPose where
  x : ℝ
  y : ℝ
  heading : Real.Angle

namespace Arc

/-- The arc driven backwards. -/
def back (a : Arc) : Arc := ⟨-a.distance, -a.turn⟩

/-- Neither a distance nor a turn. -/
def still : Arc := ⟨0, 0⟩

/-- The heading after the arcs, unwrapped. -/
noncomputable def headingSum (arcs : List Arc) : ℝ := (arcs.map Arc.turn).sum

/-- The heading in the middle of the arc number `i`, unwrapped. -/
noncomputable def midHeading (arcs : List Arc) (i : ℕ) : ℝ :=
  headingSum (arcs.take i) + (arcs.getD i still).turn / 2

@[simp] theorem headingSum_nil : headingSum [] = 0 := rfl

theorem headingSum_concat (arcs : List Arc) (a : Arc) :
    headingSum (arcs ++ [a]) = headingSum arcs + a.turn := by
  simp [headingSum]

/-- One more arc does not change the heading in the earlier ones. -/
theorem midHeading_concat_of_lt {arcs : List Arc} {i : ℕ} (a : Arc) (hi : i < arcs.length) :
    midHeading (arcs ++ [a]) i = midHeading arcs i := by
  rw [midHeading, List.take_append_of_le_length hi.le, List.getD_append _ _ _ _ hi, midHeading]

theorem midHeading_concat (arcs : List Arc) (a : Arc) :
    midHeading (arcs ++ [a]) arcs.length = headingSum arcs + a.turn / 2 := by
  rw [midHeading, List.take_left, List.getD_append_right _ _ _ _ (le_refl _)]
  simp

end Arc

namespace PlanarPose

open Arc

/-- At the origin, heading along the first axis. -/
noncomputable def origin : PlanarPose := ⟨0, 0, 0⟩

/-- The pose at the end of the arc. -/
noncomputable def move (p : PlanarPose) (a : Arc) : PlanarPose where
  x := p.x + a.distance * (p.heading + (a.turn / 2 : ℝ)).cos
  y := p.y + a.distance * (p.heading + (a.turn / 2 : ℝ)).sin
  heading := p.heading + a.turn

/-- The pose at the end of the arcs. -/
noncomputable def moves (p : PlanarPose) (arcs : List Arc) : PlanarPose := arcs.foldl move p

@[simp] theorem moves_nil (p : PlanarPose) : p.moves [] = p := rfl

theorem moves_append (p : PlanarPose) (arcs arcs' : List Arc) :
    p.moves (arcs ++ arcs') = (p.moves arcs).moves arcs' := List.foldl_append

theorem moves_concat (p : PlanarPose) (arcs : List Arc) (a : Arc) :
    p.moves (arcs ++ [a]) = (p.moves arcs).move a := moves_append p arcs [a]

@[simp] theorem move_still (p : PlanarPose) : p.move still = p := by
  ext
  · simp [move, still]
  · simp [move, still]
  · simp [move, still]

/-- The chord of an arc is that of the arc back: the heading in the middle is the same. -/
theorem move_back (p : PlanarPose) (a : Arc) : (p.move a).move a.back = p := by
  have hmid : p.heading + (a.turn : ℝ) + (a.back.turn / 2 : ℝ) =
      p.heading + (a.turn / 2 : ℝ) := by
    rw [add_assoc, ← Angle.coe_add, back]
    congr 2
    ring
  ext
  · show p.x + a.distance * _ + -a.distance * (p.heading + a.turn + (a.back.turn / 2 : ℝ)).cos = p.x
    rw [hmid]
    ring
  · show p.y + a.distance * _ + -a.distance * (p.heading + a.turn + (a.back.turn / 2 : ℝ)).sin = p.y
    rw [hmid]
    ring
  · show p.heading + a.turn + ((-a.turn : ℝ) : Angle) = p.heading
    rw [Angle.coe_neg, add_neg_cancel_right]

/-- **There and back.** -/
theorem moves_back (p : PlanarPose) (arcs : List Arc) :
    (p.moves arcs).moves (arcs.reverse.map Arc.back) = p := by
  -- the last arc is the first to be driven back
  induction arcs using List.reverseRecOn with
  | nil => rfl
  | append_singleton arcs a ih =>
    rw [List.reverse_append, List.reverse_singleton, List.singleton_append, List.map_cons,
      moves_concat]
    show (((p.moves arcs).move a).move a.back).moves _ = p
    rw [move_back]
    exact ih

/-- **The sums of a path from the origin.** -/
theorem moves_origin (arcs : List Arc) :
    (origin.moves arcs).heading = (headingSum arcs : ℝ) ∧
    (origin.moves arcs).x =
      ∑ i ∈ Finset.range arcs.length, (arcs.getD i still).distance * cos (midHeading arcs i) ∧
    (origin.moves arcs).y =
      ∑ i ∈ Finset.range arcs.length, (arcs.getD i still).distance * sin (midHeading arcs i) := by
  induction arcs using List.reverseRecOn with
  | nil => exact ⟨rfl, rfl, rfl⟩
  | append_singleton arcs a ih =>
    obtain ⟨hheading, hx, hy⟩ := ih
    have hlast : ((arcs ++ [a]).getD arcs.length still) = a := by
      rw [List.getD_append_right _ _ _ _ (le_refl _), Nat.sub_self]
      rfl
    -- the earlier chords are those of the shorter path
    have hsum : ∀ f : ℝ → ℝ,
        ∑ i ∈ Finset.range (arcs ++ [a]).length,
          ((arcs ++ [a]).getD i still).distance * f (midHeading (arcs ++ [a]) i) =
        (∑ i ∈ Finset.range arcs.length, (arcs.getD i still).distance * f (midHeading arcs i)) +
          a.distance * f (headingSum arcs + a.turn / 2) := by
      intro f
      rw [List.length_append, List.length_singleton, Finset.sum_range_succ, hlast,
        midHeading_concat]
      congr 1
      refine Finset.sum_congr rfl fun i hi => ?_
      have hi := Finset.mem_range.mp hi
      rw [midHeading_concat_of_lt a hi, List.getD_append _ _ _ _ hi]
    have hmid : (headingSum arcs : Angle) + (a.turn / 2 : ℝ) =
        ((headingSum arcs + a.turn / 2 : ℝ) : Angle) := (Angle.coe_add _ _).symm
    rw [moves_concat, hsum, hsum, headingSum_concat]
    refine ⟨?_, ?_, ?_⟩
    · show (origin.moves arcs).heading + (a.turn : Angle) = _
      rw [hheading, Angle.coe_add]
    · show (origin.moves arcs).x + a.distance * ((origin.moves arcs).heading + _).cos = _
      rw [hheading, hx, hmid, Angle.cos_coe]
    · show (origin.moves arcs).y + a.distance * ((origin.moves arcs).heading + _).sin = _
      rw [hheading, hy, hmid, Angle.sin_coe]

end PlanarPose
