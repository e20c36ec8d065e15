import GSharp.Proofs.Figure.FewPoints
import GSharp.Proofs.Number.Zero

namespace GSharp

open Plane

namespace Intersection

/-- Of one shared point at most, the very same point or none is left. -/
def KeptOrLost (narrow wide : Intersection) : Prop :=
  ∃ shared, wide = points shared ∧ shared.length ≤ 1 ∧
    (narrow = points shared ∨ narrow = points [])

theorem keptOrLost_ite {narrow wide : Prop} [Decidable narrow] [Decidable wide]
    (monotone : narrow → wide) (p : Point) :
    KeptOrLost (points (if narrow then [p] else [])) (points (if wide then [p] else [])) := by
  refine ⟨_, rfl, atMost_ite wide p, ?_⟩
  by_cases kept : narrow
  · rw [if_pos kept, if_pos (monotone kept)]
    exact .inl rfl
  · rw [if_neg kept]
    exact .inr rfl

end Intersection

open Intersection

namespace Linear

/-- The same origin and direction, with bounds that admit no further parameters. -/
structure Within (part whole : Linear) : Prop where
  origin : part.origin = whole.origin
  direction : part.direction = whole.direction
  admits {t : Float} : part.admits t = true → whole.admits t = true

namespace Within

variable {part whole : Linear}

theorem trans {middle : Linear} (inner : part.Within middle) (outer : middle.Within whole) :
    part.Within whole where
  origin := inner.origin.trans outer.origin
  direction := inner.direction.trans outer.direction
  admits admitted := outer.admits (inner.admits admitted)

variable (within : part.Within whole)
include within

theorem isDegenerate : part.isDegenerate = whole.isDegenerate := by
  rw [Linear.isDegenerate, Linear.isDegenerate, within.direction]

theorem pointAt : part.pointAt = whole.pointAt := by
  unfold Linear.pointAt
  rw [within.origin, within.direction]

/-- The bounds have no say in where the supporting line meets a circle. -/
theorem circleParameters (circle : Circle) :
    part.circleParameters circle = whole.circleParameters circle := by
  unfold Linear.circleParameters
  rw [within.origin, within.direction, within.pointAt]

/-- A figure without a direction is looked for as a point, and no part holds one that the whole does
not. -/
theorem holds {p : Point} (held : part.holds p = true) : whole.holds p = true := by
  unfold Linear.holds at held ⊢
  rw [within.isDegenerate, within.origin, within.direction] at held
  by_cases degenerate : whole.isDegenerate = true
  · rwa [if_pos degenerate] at held ⊢
  · rw [if_neg degenerate, Bool.and_eq_true] at held ⊢
    exact held.imp_right within.admits

theorem intersectCircle (circle : Circle) :
    ∃ few many, part.intersectCircle circle = .points few ∧
      whole.intersectCircle circle = .points many ∧ few.Sublist many := by
  unfold Linear.intersectCircle
  rw [within.isDegenerate, within.origin, within.circleParameters, within.pointAt]
  split
  · exact ⟨_, _, rfl, rfl, .refl _⟩
  · exact ⟨_, _, rfl, rfl,
      (List.monotone_filter_right _ fun _ admitted => within.admits admitted).map _⟩

/-- The crossing is computed from the directions, and each figure is asked for its own parameter. -/
theorem crossing_left (other : Linear) :
    KeptOrLost (part.crossing other) (whole.crossing other) := by
  unfold crossing
  rw [within.origin, within.direction, within.pointAt]
  refine keptOrLost_ite (fun admitted => ?_) _
  rw [Bool.and_eq_true] at admitted ⊢
  exact admitted.imp_left within.admits

theorem crossing_right (other : Linear) :
    KeptOrLost (other.crossing part) (other.crossing whole) := by
  unfold crossing
  rw [within.origin, within.direction]
  refine keptOrLost_ite (fun admitted => ?_) _
  rw [Bool.and_eq_true] at admitted ⊢
  exact admitted.imp_right within.admits

theorem intersect_left {other : Linear}
    (skew : whole.direction.isParallel other.direction = false) :
    KeptOrLost (part.intersect other) (whole.intersect other) := by
  unfold Linear.intersect
  rw [within.isDegenerate, within.origin, within.direction, skew]
  split
  · exact keptOrLost_ite id _
  · split
    · exact keptOrLost_ite within.holds _
    · exact within.crossing_left other

theorem intersect_right {other : Linear}
    (skew : other.direction.isParallel whole.direction = false) :
    KeptOrLost (other.intersect part) (other.intersect whole) := by
  unfold Linear.intersect
  rw [within.isDegenerate, within.origin, within.direction, skew]
  split
  · exact keptOrLost_ite within.holds _
  · split
    · exact keptOrLost_ite id _
    · exact within.crossing_right other

end Within

/-- Nothing that is a number lies outside the infinities, and slack does not move them. -/
theorem segment_within_ray (p q : Point) : (segment p q).Within (ray p q) where
  origin := rfl
  direction := rfl
  admits := by
    intro t admitted
    have above : (1.0 / 0.0 : Float) + epsilon = 1.0 / 0.0 := rfl
    unfold admits ray at *
    rw [Bool.and_eq_true, decide_eq_true_iff, decide_eq_true_iff] at admitted ⊢
    rw [above]
    exact ⟨admitted.1, Number.le_infinity admitted.2⟩

theorem ray_within_line (p q : Point) : (ray p q).Within (line p q) where
  origin := rfl
  direction := rfl
  admits := by
    intro t admitted
    have below : -(1.0 / 0.0 : Float) - epsilon = -(1.0 / 0.0) := rfl
    unfold admits line at *
    rw [Bool.and_eq_true, decide_eq_true_iff, decide_eq_true_iff] at admitted ⊢
    rw [below]
    exact ⟨Number.negInfinity_le admitted.1, admitted.2⟩

/-- Bounded figures find nothing that their line does not. With a circle a segment shares some of
the points of its ray, and the ray some of those of its line, in the same order. With a linear
figure of another direction, on either side, the one point of a line is kept or lost. -/
theorem bounds_filter (p q : Point) :
    (∀ circle : Circle, ∃ onSegment onRay onLine,
      (segment p q).intersectCircle circle = .points onSegment ∧
      (ray p q).intersectCircle circle = .points onRay ∧
      (line p q).intersectCircle circle = .points onLine ∧
      onSegment.Sublist onRay ∧ onRay.Sublist onLine) ∧
    ∀ part ∈ [segment p q, ray p q], ∀ other : Linear,
      ((line p q).direction.isParallel other.direction = false →
        KeptOrLost (part.intersect other) ((line p q).intersect other)) ∧
      (other.direction.isParallel (line p q).direction = false →
        KeptOrLost (other.intersect part) (other.intersect (line p q))) := by
  constructor
  · intro circle
    obtain ⟨onSegment, onRay, found, between, fewer⟩ :=
      (segment_within_ray p q).intersectCircle circle
    obtain ⟨same, onLine, again, all, few⟩ := (ray_within_line p q).intersectCircle circle
    rw [between] at again
    cases again
    exact ⟨onSegment, onRay, onLine, found, between, all, fewer, few⟩
  · intro part own other
    have within : part.Within (line p q) := by
      rcases List.mem_pair.mp own with rfl | rfl
      · exact (segment_within_ray p q).trans (ray_within_line p q)
      · exact ray_within_line p q
    exact ⟨within.intersect_left, within.intersect_right⟩

/-- On the horizontal axis a circle of radius two takes from the line to the ray one of two points
and from the ray to the segment the other one, and so does an upright line at five the only one. -/
theorem bounds_filter_axis :
    let origin : Point := ⟨0, 0⟩
    let through : Point := ⟨1, 0⟩
    let circle : Circle := ⟨origin, ⟨2⟩⟩
    let upright := line ⟨5, -1⟩ ⟨5, 1⟩
    ((line origin through).intersectCircle circle = .points [⟨-2, 0⟩, ⟨2, 0⟩] ∧
      (ray origin through).intersectCircle circle = .points [⟨2, 0⟩] ∧
      (segment origin through).intersectCircle circle = .points []) ∧
    KeptOrLost ((segment origin through).intersect upright)
      ((line origin through).intersect upright) ∧
    KeptOrLost (upright.intersect (ray origin through))
      (upright.intersect (line origin through)) ∧
    (line origin through).intersect upright = .points [⟨5, 0⟩] ∧
      (segment origin through).intersect upright = .points [] ∧
      upright.intersect (ray origin through) = .points [⟨5, 0⟩] := by
  have filtered := (bounds_filter ⟨0, 0⟩ ⟨1, 0⟩).2
  have lost := (filtered _ (.head _) (line ⟨5, -1⟩ ⟨5, 1⟩)).1 (by decide +kernel)
  have kept := (filtered _ (.tail _ (.head _)) (line ⟨5, -1⟩ ⟨5, 1⟩)).2 (by decide +kernel)
  exact ⟨by decide +kernel, lost, kept, by decide +kernel⟩

end Linear

end GSharp
