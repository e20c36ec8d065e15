import GSharp.Figure.Intersection
import GSharp.Proofs.Number.Zero

namespace GSharp

open Plane

variable {p q v : Point}

namespace Point

/-- Both coordinates are finite. -/
def IsFinite (p : Point) : Prop := p.x.isFinite = true ∧ p.y.isFinite = true

theorem sub_self (finite : p.IsFinite) : p - p = ⟨0, 0⟩ := by
  change Point.mk (p.x - p.x) (p.y - p.y) = _
  rw [Number.sub_self_of_isFinite finite.1, Number.sub_self_of_isFinite finite.2]

/-- No direction can be told from infinitely far away. -/
theorem isNaN_sub_self (special : ¬p.IsFinite) :
    (p - p).x.isNaN = true ∨ (p - p).y.isNaN = true := by
  rw [IsFinite, not_and_or, Bool.not_eq_true, Bool.not_eq_true] at special
  exact special.imp Number.isNaN_sub_self Number.isNaN_sub_self

theorem isNaN_length_sub_self (special : ¬p.IsFinite) : (p - p).length.isNaN = true :=
  Number.isNaN_hypot (isNaN_sub_self special) (Number.isInf_sub_self _) (Number.isInf_sub_self _)

theorem isNaN_dot_sub_self (special : ¬p.IsFinite) : ((p - p).dot (p - p)).isNaN = true := by
  refine Number.isNaN_fusedMulAdd ?_
  rcases isNaN_sub_self special with nan | nan
  · exact .inl nan
  · exact .inr (.inr (Number.isNaN_mul (.inl nan)))

theorem isFinite_of_distance (finite : (p.distance q).isFinite = true) :
    p.IsFinite ∧ (q - p).IsFinite := by
  have sides : (q - p).IsFinite := Number.isFinite_of_hypot finite
  exact ⟨⟨(Number.isFinite_of_sub sides.1).2, (Number.isFinite_of_sub sides.2).2⟩, sides⟩

theorem length_zero : (Point.mk 0 0).length = 0 := rfl

/-- A direction of no length is parallel to every vector of finite length. -/
theorem isParallel_zero (v : Point) : (Point.mk 0 0).isParallel v = v.length.isFinite := by
  unfold isParallel
  rw [length_zero]
  cases length : v.length.isFinite with
  | true =>
    have sides : v.IsFinite := Number.isFinite_of_hypot length
    have cross : Number.IsZero ((Point.mk 0 0).cross v) :=
      Number.isZero_zero.fusedMulAdd sides.2 (Number.isZero_zero.mul_left sides.1).neg
    rw [cross.abs, Number.isZero_zero.fusedMulAdd_one length]
    decide
  | false =>
    exact decide_eq_false (Number.not_le_of_isNaN (.inr
      (Number.isNaN_mul (.inr (Number.isZero_zero.isNaN_fusedMulAdd length)))))

theorem not_isParallel_of_isNaN (nan : p.length.isNaN = true) : p.isParallel q = false :=
  decide_eq_false (Number.not_le_of_isNaN (.inr
    (Number.isNaN_mul (.inr (Number.isNaN_fusedMulAdd (.inl nan))))))

/-- What lies along a direction from a point to itself. -/
theorem isParallel_sub_self (p q : Point) :
    (p - p).isParallel (q - p) = (p.distance q).isFinite := by
  by_cases finite : p.IsFinite
  · rw [sub_self finite, isParallel_zero]
    rfl
  · rw [not_isParallel_of_isNaN (isNaN_length_sub_self finite), eq_comm, ← Bool.not_eq_true]
    exact fun near => finite (isFinite_of_distance near).1

end Point

theorem onLine_self (p q : Point) : onLine q p p = (p.distance q).isFinite :=
  Point.isParallel_sub_self p q

theorem onRay_self (p q : Point) : onRay q p p = (p.distance q).isFinite := by
  unfold onRay
  dsimp only
  rw [Point.isParallel_sub_self]
  cases near : (p.distance q).isFinite with
  | false => rfl
  | true =>
    obtain ⟨finite, sides⟩ := Point.isFinite_of_distance near
    have one : Number.fusedMulAdd 0 (q - p).length 1 = 1 :=
      Number.isZero_zero.fusedMulAdd_one near
    have ahead : Number.IsZero ((q - p).dot ⟨0, 0⟩) :=
      .fusedMulAdd_right sides.1 Number.isZero_zero (.mul_right sides.2 Number.isZero_zero)
    obtain ⟨s, shape⟩ := ahead
    rw [Point.sub_self finite, Point.length_zero, one, Bool.true_and, decide_eq_true_iff, ge_iff_le,
      Number.le_iff_parts, shape]
    cases s <;> decide

/-- A segment between a point and itself holds nothing but what is near that point. -/
theorem near_of_onSegment_self (held : onSegment q p p = true) : q.near p = true := by
  unfold onSegment at held
  dsimp only at held
  split at held
  · cases held
  · split at held
    · exact held
    · next long =>
      by_cases finite : p.IsFinite
      · rw [Point.sub_self finite] at long
        exact absurd (by decide) long
      · have squared := Point.isNaN_dot_sub_self finite
        rw [Bool.and_eq_true, Bool.and_eq_true, decide_eq_true_iff, decide_eq_true_iff] at held
        exact absurd held.2 (Number.not_le_of_isNaN (.inl (Number.isNaN_div (.inr squared))))

/-- There is nothing to put in order among fewer than two points. -/
theorem Intersection.normalized_ite (condition : Prop) [Decidable condition] (p : Point) :
    (Intersection.points (if condition then [p] else [])).normalized =
      .points (if condition then [p] else []) := by
  split <;> simp [Intersection.normalized, mergeNear, mergeNear.go]

theorem Linear.holds_of_isDegenerate {linear : Linear} (degenerate : linear.isDegenerate = true)
    (q : Point) : linear.holds q = q.near linear.origin := by
  rw [holds, if_pos degenerate]

namespace Figure

/-- The linear figures of two points. -/
def through (p q : Point) : List Figure := [line p q, segment p q, ray p q]

/-- As an operand a linear figure is the point that both of its points are. -/
theorem locus?_of_mem_through (finite : p.IsFinite) {figure : Figure}
    (own : figure ∈ through p p) : ∃ linear : Linear,
      figure.locus? = some (.linear linear) ∧ linear.isDegenerate = true ∧ linear.origin = p := by
  have none : decide ((Point.mk 0 0).length ≤ epsilon) = true := rfl
  rw [← Point.sub_self finite] at none
  simp only [through, List.mem_cons, List.not_mem_nil, or_false] at own
  rcases own with rfl | rfl | rfl <;> exact ⟨_, rfl, none, rfl⟩

theorem point_intersect?_line_self (p q : Point) :
    (point q).intersect? (line p p) =
      some (.points (if (p.distance q).isFinite then [q] else [])) := by
  have shared : (point q).intersect? (line p p) = some ((line p p).pointShared q).normalized := rfl
  simp only [shared, pointShared, Intersection.normalized_ite, holds?, onLine_self,
    Option.some.injEq]

theorem point_intersect?_ray_self (p q : Point) :
    (point q).intersect? (ray p p) =
      some (.points (if (p.distance q).isFinite then [q] else [])) := by
  have shared : (point q).intersect? (ray p p) = some ((ray p p).pointShared q).normalized := rfl
  simp only [shared, pointShared, Intersection.normalized_ite, holds?, onRay_self,
    Option.some.injEq]

theorem intersect?_through_self (left : p.IsFinite) (right : q.IsFinite) {f g : Figure}
    (first : f ∈ through p p) (second : g ∈ through q q) :
    f.intersect? g = some (.points (if p.near q then [p] else [])) := by
  obtain ⟨l, locus, degenerate, rfl⟩ := locus?_of_mem_through left first
  obtain ⟨m, locus', degenerate', rfl⟩ := locus?_of_mem_through right second
  have shared : f.intersect? g = some (l.intersect m).normalized := by
    rw [intersect?, locus, locus']
    rfl
  rw [shared, Linear.intersect, if_pos degenerate,
    Linear.holds_of_isDegenerate degenerate',
    Intersection.normalized_ite]

/-- What figures from a point to itself hold. A segment keeps to the points near that point, but a
line and a ray hold every point at a finite distance, and give it back when they are intersected
with it. As operands all three are that point: put any of them in the other point's place, and only
near ones are shared. -/
theorem holds?_through_self (p q : Point) :
    ((segment p p).holds? q = some true → q.near p = true) ∧
      (∀ figure ∈ [line p p, ray p p],
        figure.holds? q = some (p.distance q).isFinite ∧
          (point q).intersect? figure =
            some (.points (if (p.distance q).isFinite then [q] else []))) ∧
      (p.IsFinite → ∀ figure ∈ through p p,
        (∃ linear : Linear, figure.locus? = some (.linear linear) ∧
          linear.holds q = q.near p) ∧
        (q.IsFinite → ∀ dot ∈ through q q,
          dot.intersect? figure = some (.points (if q.near p then [q] else [])))) := by
  refine ⟨fun held => near_of_onSegment_self (Option.some.inj held), ?_, ?_⟩
  · simp only [List.mem_cons, List.not_mem_nil, or_false]
    rintro figure (rfl | rfl)
    · exact ⟨congrArg some (onLine_self p q), point_intersect?_line_self p q⟩
    · exact ⟨congrArg some (onRay_self p q), point_intersect?_ray_self p q⟩
  · intro finite figure own
    refine ⟨?_, fun finite' dot other => intersect?_through_self finite' finite other own⟩
    obtain ⟨linear, locus, degenerate, rfl⟩ := locus?_of_mem_through finite own
    exact ⟨linear, locus, Linear.holds_of_isDegenerate degenerate q⟩

/-- A line from a point to itself holds a point far away, of which a segment that ends there, seen
as an operand, knows nothing. -/
theorem line_self_holds_far :
    let p : Point := ⟨1, 1⟩
    let q : Point := ⟨100, 50⟩
    (line p p).holds? q = some true ∧ q.near p = false ∧
      (point q).intersect? (line p p) = some (.points [q]) ∧
      (segment q q).intersect? (line p p) = some (.points []) := by
  decide +kernel

end Figure

end GSharp
